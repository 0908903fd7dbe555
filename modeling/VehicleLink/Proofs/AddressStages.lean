import VehicleLink.Proofs.AddressText

/-!
# Reading an address in stages

An address can be read without a grammar: the text has to be seventeen bytes long, it is cut at its
colons, six parts are taken one after the other, each of two bytes that are digits, and no part may
be left over (`Address.staged?`). Lengths are in bytes here, so a part can be one character that is
no digit.

Every stage is passed by the texts that are an address in upper case, and by no others, so the
stages read what the grammar reads (`staged_eq_parse`).
-/

namespace VehicleLink.Address

/-! ## The stages -/

/-- The octet that a part spells: two bytes, each of them a digit. -/
def octet? (part : List Char) : Option UInt8 :=
  match Utf8.encode part with
  | [hi, lo] => Hex.byte? (Char.ofNat hi.toNat) (Char.ofNat lo.toNat)
  | _ => none

/-- Takes `n` octets from the parts. Gives them and the parts that are left. -/
def takeOctets? : Nat → List (List Char) → Option (List UInt8 × List (List Char))
  | 0, parts => some ([], parts)
  | _ + 1, [] => none
  | n + 1, part :: parts =>
    match octet? part with
    | none => none
    | some b => (takeOctets? n parts).map fun taken => (b :: taken.1, taken.2)

/-- Reads an address in stages. -/
def staged? (s : String) : Option Address :=
  if (Utf8.ofString s).length ≠ 17 then none
  else
    match takeOctets? 6 (s.toList.splitOn ':') with
    | some (octets, []) => ofOctets? octets
    | _ => none

/-! ## What passes a stage -/

theorem toNat_lt_of_value {c : Char} {n : Nat} (h : Hex.value? c = some n) : c.toNat < 0x80 := by
  simp only [Hex.value?] at h
  grind

theorem toNat_lt_of_byte {hi lo : Char} {b : UInt8} (h : Hex.byte? hi lo = some b) :
    hi.toNat < 0x80 ∧ lo.toNat < 0x80 := by
  unfold Hex.byte? at h
  split at h
  · rename_i hhi hlo
    exact ⟨toNat_lt_of_value hhi, toNat_lt_of_value hlo⟩
  · cases h

theorem encode_pair {hi lo : Char} (hhi : hi.toNat < 0x80) (hlo : lo.toNat < 0x80) :
    Utf8.encode [hi, lo] = [UInt8.ofNat hi.toNat, UInt8.ofNat lo.toNat] := by
  simp [Utf8.encode, Utf8.encodeChar, hhi, hlo]

/-- The character of a byte has its number. -/
theorem toNat_ofNat_byte (b : UInt8) : (Char.ofNat b.toNat).toNat = b.toNat := by
  have hvalid : b.toNat.isValidChar := .inl (by have := b.toNat_lt; omega)
  have hchar : Char.ofNat b.toNat = Char.ofNatAux b.toNat hvalid := dif_pos hvalid
  rw [hchar]
  rfl

/-- A part is read as an octet exactly if it is the two digits of it in upper case. -/
theorem octet_eq_some_iff {part : List Char} {b : UInt8} :
    octet? part = some b ↔ part.map Char.toUpper = Hex.upperByte b := by
  constructor
  · intro h
    unfold octet? at h
    split at h
    · rename_i hi lo hbytes
      obtain ⟨hhi, hlo⟩ := toNat_lt_of_byte h
      -- No other characters have the bytes of two digits.
      have hpart : part = [Char.ofNat hi.toNat, Char.ofNat lo.toNat] := by
        refine Utf8.encode_inj.1 ?_
        rw [hbytes, encode_pair hhi hlo, toNat_ofNat_byte, toNat_ofNat_byte, UInt8.ofNat_toNat,
          UInt8.ofNat_toNat]
      rw [hpart]
      exact Hex.byte_eq_some_iff.1 h
    · cases h
  · intro h
    obtain ⟨hi, lo, rest, rfl, hbyte, hrest⟩ := pair_of_toUpper (h.trans (List.append_nil _).symm)
    cases List.map_eq_nil_iff.1 hrest
    obtain ⟨hhi, hlo⟩ := toNat_lt_of_byte hbyte
    have hchar {c : Char} (hc : c.toNat < 0x80) : Char.ofNat (UInt8.ofNat c.toNat).toNat = c := by
      rw [UInt8.toNat_ofNat', Nat.mod_eq_of_lt (by omega), Char.ofNat_toNat]
    rw [octet?, encode_pair hhi hlo]
    simpa only [hchar hhi, hchar hlo] using hbyte

/-- Octets are taken exactly from parts that are their digits in upper case. -/
theorem takeOctets_eq_some_iff {n : Nat} {parts rest : List (List Char)} {bs : List UInt8} :
    takeOctets? n parts = some (bs, rest) ↔
      ∃ front, parts = front ++ rest ∧ bs.length = n ∧
        front.map (List.map Char.toUpper) = bs.map Hex.upperByte := by
  induction n generalizing parts bs with
  | zero =>
    constructor
    · intro h
      cases h
      exact ⟨[], rfl, rfl, rfl⟩
    · rintro ⟨front, rfl, hlength, hfront⟩
      cases List.length_eq_zero_iff.1 hlength
      cases List.map_eq_nil_iff.1 hfront
      rfl
  | succ n ih =>
    constructor
    · intro h
      cases parts with
      | nil => cases h
      | cons part parts =>
        rw [takeOctets?] at h
        split at h
        · cases h
        · rename_i b hb
          obtain ⟨⟨bs, rest⟩, htaken, htake⟩ := Option.map_eq_some_iff.1 h
          cases htake
          obtain ⟨front, rfl, hlength, hfront⟩ := ih.1 htaken
          refine ⟨part :: front, rfl, congrArg (· + 1) hlength, ?_⟩
          rw [List.map_cons, List.map_cons, octet_eq_some_iff.1 hb, hfront]
    · rintro ⟨front, rfl, hlength, hfront⟩
      obtain ⟨b, bs, rfl⟩ := List.exists_cons_of_length_eq_add_one hlength
      obtain ⟨part, front, rfl, hpart, hfront⟩ := List.map_eq_cons_iff.1 hfront
      rw [List.cons_append, takeOctets?, octet_eq_some_iff.2 hpart,
        ih.2 ⟨front, rfl, Nat.succ.inj hlength, hfront⟩]
      rfl

/-- A text that is an address in upper case is seventeen bytes. -/
theorem length_of_toUpper {s : String} {a : Address} (h : s.toList.map Char.toUpper = a.chars) :
    (Utf8.ofString s).length = 17 := by
  have hascii : ∀ c ∈ s.toList, c.toNat < 0x80 := by
    intro c hc
    have hupper : c.toUpper.toNat < 0x80 := chars_ascii (h ▸ List.mem_map_of_mem hc)
    rw [Hex.toNat_toUpper] at hupper
    grind
  rw [Utf8.ofString, Utf8.length_encode_of_ascii hascii]
  simpa [Hex.upperByte, chars] using congrArg List.length h

/-! ## The stages together -/

theorem staged_eq_some_iff {s : String} {a : Address} :
    staged? s = some a ↔ s.toList.map Char.toUpper = a.chars := by
  constructor
  · intro h
    unfold staged? at h
    split at h
    · cases h
    split at h
    · rename_i octets htaken
      obtain rfl : octets = a.octets := ofOctets_eq_some_iff.1 h
      obtain ⟨front, hparts, -, hfront⟩ := takeOctets_eq_some_iff.1 htaken
      rw [List.append_nil] at hparts
      exact splitOn_eq_octets_iff.1 (by rw [hparts, hfront])
    · cases h
  · intro h
    have htaken : takeOctets? 6 (s.toList.splitOn ':') = some (a.octets, []) :=
      takeOctets_eq_some_iff.2 ⟨_, (List.append_nil _).symm, rfl, splitOn_eq_octets_iff.2 h⟩
    rw [staged?, if_neg (not_not.2 (length_of_toUpper h)), htaken]
    exact ofOctets_eq_some_iff.2 rfl

/-- The stages read exactly the addresses that the grammar reads, each from the same texts. -/
theorem staged_eq_parse (s : String) : staged? s = parse? s :=
  Option.ext fun _ => staged_eq_some_iff.trans parse_eq_some_iff.symm

/-- A part of one character that takes two bytes is cut, and read as no octet. -/
example : staged? "é:bb:cc:0d:0E:ff" = none := by decide

end VehicleLink.Address
