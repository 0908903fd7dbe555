import VehicleLink.Text.Hex

/-!
# Universally unique identifiers

128 bits as sixteen bytes, written as 32 hexadecimal digits in lower case with hyphens after the
8th, 12th, 16th and 20th. Reading takes either case, with all four hyphens or with none.
-/

namespace VehicleLink

/-- A 128-bit identifier, as its bytes in the order in which they are written. -/
structure Uuid where
  bytes : List UInt8
  deriving DecidableEq

namespace Uuid

/-- The written form, with hyphens. -/
def text (u : Uuid) : String :=
  let part (start len : Nat) := Hex.encode ((u.bytes.drop start).take len)
  "-".intercalate [part 0 4, part 4 2, part 6 2, part 8 2, part 10 6]

/-- The identifier that 32 digits spell. -/
def ofDigits? (s : List Char) : Option Uuid :=
  if s.length = 32 then (Hex.decode? s).map Uuid.mk else none

/-- The identifier that a text spells, in either case, with hyphens or without. -/
def parse? (s : String) : Option Uuid :=
  let text := s.toList
  if text.length = 36 then
    if text[8]? = some '-' ∧ text[13]? = some '-' ∧ text[18]? = some '-' ∧ text[23]? = some '-' then
      ofDigits? (text.filter (· ≠ '-'))
    else none
  else ofDigits? text

end Uuid

end VehicleLink
