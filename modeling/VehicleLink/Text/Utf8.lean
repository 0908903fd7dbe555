/-!
# UTF-8

Characters as bytes and back. Reading goes byte by byte: between two characters, or inside one
with its value so far, the number of bytes still missing and the range the next of them must lie
in. The ranges are those of the Unicode table of well-formed sequences, so no overlong form, no
surrogate and nothing above the last code point is read.
-/

namespace VehicleLink.Utf8

/-- The bytes of one character. -/
def encodeChar (c : Char) : List UInt8 :=
  let n := c.toNat
  if n < 0x80 then [UInt8.ofNat n]
  else if n < 0x800 then [UInt8.ofNat (0xC0 + n / 64), UInt8.ofNat (0x80 + n % 64)]
  else if n < 0x10000 then
    [UInt8.ofNat (0xE0 + n / 4096), UInt8.ofNat (0x80 + n / 64 % 64), UInt8.ofNat (0x80 + n % 64)]
  else
    [UInt8.ofNat (0xF0 + n / 262144), UInt8.ofNat (0x80 + n / 4096 % 64),
      UInt8.ofNat (0x80 + n / 64 % 64), UInt8.ofNat (0x80 + n % 64)]

/-- The bytes of a text. -/
def encode (s : List Char) : List UInt8 := s.flatMap encodeChar

/-- The bytes of a string. -/
def ofString (s : String) : List UInt8 := encode s.toList

/-- A character of which some bytes have been read. -/
structure Pending where
  /-- The bits read so far. -/
  value : Nat
  /-- How many bytes are missing. -/
  missing : Nat
  /-- The least byte that may come next. -/
  low : Nat
  /-- The greatest byte that may come next. -/
  high : Nat

/-- What one byte leads to. -/
inductive Step where
  /-- It ends a character. -/
  | char (c : Char)
  /-- It begins or continues one. -/
  | more (p : Pending)
  /-- It cannot stand here. -/
  | invalid

/-- The first byte of a character. -/
def lead (n : Nat) : Step :=
  if n < 0x80 then .char (Char.ofNat n)
  else if n < 0xC2 then .invalid
  else if n < 0xE0 then .more ⟨n - 0xC0, 1, 0x80, 0xBF⟩
  else if n = 0xE0 then .more ⟨0, 2, 0xA0, 0xBF⟩
  else if n = 0xED then .more ⟨0xD, 2, 0x80, 0x9F⟩
  else if n < 0xF0 then .more ⟨n - 0xE0, 2, 0x80, 0xBF⟩
  else if n = 0xF0 then .more ⟨0, 3, 0x90, 0xBF⟩
  else if n < 0xF4 then .more ⟨n - 0xF0, 3, 0x80, 0xBF⟩
  else if n = 0xF4 then .more ⟨4, 3, 0x80, 0x8F⟩
  else .invalid

/-- One byte, after the bytes of an unfinished character if there are any. -/
def step (state : Option Pending) (b : UInt8) : Step :=
  match state with
  | none => lead b.toNat
  | some p =>
    if p.low ≤ b.toNat ∧ b.toNat ≤ p.high then
      let value := p.value * 64 + (b.toNat - 0x80)
      if p.missing ≤ 1 then .char (Char.ofNat value)
      else .more ⟨value, p.missing - 1, 0x80, 0xBF⟩
    else .invalid

/-- Reads on from a state; nothing if a byte cannot stand where it does or the last character is
unfinished. -/
def decodeFrom : Option Pending → List UInt8 → Option (List Char)
  | none, [] => some []
  | some _, [] => none
  | state, b :: rest =>
    match step state b with
    | .char c => (decodeFrom none rest).map (c :: ·)
    | .more p => decodeFrom (some p) rest
    | .invalid => none

/-- The text that the bytes are the UTF-8 form of. -/
def decode? (bytes : List UInt8) : Option (List Char) := decodeFrom none bytes

/-- The character that stands for bytes that cannot be read. -/
def replacement : Char := Char.ofNat 0xFFFD

/-- Reads on from a state, with one replacement character for each longest run of bytes that
begins a character and does not finish it. -/
def decodeLossyFrom : Option Pending → List UInt8 → List Char
  | none, [] => []
  | some _, [] => [replacement]
  | state, b :: rest =>
    match step state b with
    | .char c => c :: decodeLossyFrom none rest
    | .more p => decodeLossyFrom (some p) rest
    | .invalid =>
      match state with
      | none => replacement :: decodeLossyFrom none rest
      | some _ =>
        replacement ::
          match lead b.toNat with
          | .char c => c :: decodeLossyFrom none rest
          | .more p => decodeLossyFrom (some p) rest
          | .invalid => replacement :: decodeLossyFrom none rest

/-- The bytes as text, with replacement characters where they are not UTF-8. -/
def decodeLossy (bytes : List UInt8) : String := String.ofList (decodeLossyFrom none bytes)

end VehicleLink.Utf8
