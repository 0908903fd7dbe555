import VehicleLink.Text.Hex

/-!
# Link-layer addresses

A 48-bit address is six octets, written as six groups of two hexadecimal digits with colons
between them. Writing uses upper case and reading takes both cases, so reading what was written
gives the address back. Addresses are ordered by their octets, the first one weighing most.
-/

namespace VehicleLink

/-- A 48-bit link-layer address. -/
structure Address where
  o0 : UInt8
  o1 : UInt8
  o2 : UInt8
  o3 : UInt8
  o4 : UInt8
  o5 : UInt8
  deriving DecidableEq

namespace Address

def octets (a : Address) : List UInt8 := [a.o0, a.o1, a.o2, a.o3, a.o4, a.o5]

/-- The octets as one number, by which addresses are ordered. -/
def key (a : Address) : Nat :=
  ((((a.o0.toNat * 256 + a.o1.toNat) * 256 + a.o2.toNat) * 256 + a.o3.toNat) * 256
    + a.o4.toNat) * 256 + a.o5.toNat

/-- Addresses with one key are the same. -/
theorem key_injective {a b : Address} (h : a.key = b.key) : a = b := by
  obtain ⟨a0, a1, a2, a3, a4, a5⟩ := a
  obtain ⟨b0, b1, b2, b3, b4, b5⟩ := b
  have := a0.toNat_lt; have := a1.toNat_lt; have := a2.toNat_lt
  have := a3.toNat_lt; have := a4.toNat_lt; have := a5.toNat_lt
  have := b0.toNat_lt; have := b1.toNat_lt; have := b2.toNat_lt
  have := b3.toNat_lt; have := b4.toNat_lt; have := b5.toNat_lt
  simp only [key] at h
  simp only [Address.mk.injEq, ← UInt8.toNat_inj]
  omega

def chars (a : Address) : List Char :=
  Hex.upperByte a.o0 ++ ':' :: (Hex.upperByte a.o1 ++ ':' :: (Hex.upperByte a.o2 ++
    ':' :: (Hex.upperByte a.o3 ++ ':' :: (Hex.upperByte a.o4 ++ ':' :: Hex.upperByte a.o5))))

/-- The written form: six upper-case groups with colons between them. -/
def text (a : Address) : String := String.ofList a.chars

instance : ToString Address := ⟨text⟩

/-- Reads `n` groups with colons between them and nothing behind the last one. -/
def groups? : Nat → List Char → Option (List UInt8)
  | 0, _ => none
  | 1, [hi, lo] => (Hex.byte? hi lo).map ([·])
  | n + 1, hi :: lo :: ':' :: rest =>
    match Hex.byte? hi lo, groups? n rest with
    | some b, some bs => some (b :: bs)
    | _, _ => none
  | _, _ => none

def ofOctets? : List UInt8 → Option Address
  | [o0, o1, o2, o3, o4, o5] => some ⟨o0, o1, o2, o3, o4, o5⟩
  | _ => none

/-- The address that a text spells, in either case of the digits. -/
def parse? (s : String) : Option Address := (groups? 6 s.toList).bind ofOctets?

end Address

end VehicleLink
