/-!
# Hexadecimal text

Digits in both directions and byte strings written two digits a byte. Writing gives one case only;
reading takes both.
-/

namespace VehicleLink.Hex

/-- The value of a hexadecimal digit in either case. -/
def value? (c : Char) : Option Nat :=
  let n := c.toNat
  if 48 ≤ n ∧ n ≤ 57 then some (n - 48)
  else if 65 ≤ n ∧ n ≤ 70 then some (n - 55)
  else if 97 ≤ n ∧ n ≤ 102 then some (n - 87)
  else none

/-- The digit for a value below sixteen, in upper case. -/
def upperDigit (n : Nat) : Char := Char.ofNat (if n < 10 then 48 + n else 55 + n)

/-- The digit for a value below sixteen, in lower case. -/
def lowerDigit (n : Nat) : Char := Char.ofNat (if n < 10 then 48 + n else 87 + n)

/-- The byte that two digits spell. -/
def byte? (hi lo : Char) : Option UInt8 :=
  match value? hi, value? lo with
  | some h, some l => some (UInt8.ofNat (16 * h + l))
  | _, _ => none

/-- A byte as two digits, upper case. -/
def upperByte (b : UInt8) : List Char := [upperDigit (b.toNat / 16), upperDigit (b.toNat % 16)]

/-- A byte as two digits, lower case. -/
def lowerByte (b : UInt8) : List Char := [lowerDigit (b.toNat / 16), lowerDigit (b.toNat % 16)]

/-- Bytes as lower-case text. -/
def encode (bytes : List UInt8) : String := String.ofList (bytes.flatMap lowerByte)

/-- The bytes of a text of digit pairs; nothing if a digit is missing or is none. -/
def decode? : List Char → Option (List UInt8)
  | [] => some []
  | [_] => none
  | hi :: lo :: rest =>
    match byte? hi lo, decode? rest with
    | some b, some bs => some (b :: bs)
    | _, _ => none

end VehicleLink.Hex
