import VehicleLink.Decimal.Binary64

/-!
# Numbers from text

Whole numbers with a sign, bounded to a width, and decimals with a point and an exponent.
-/

namespace VehicleLink.Decimal

def isDigit (c : Char) : Bool := 48 ≤ c.toNat && c.toNat ≤ 57

/-- The number that a list of digits spells. -/
def ofDigits (s : List Char) : Nat := s.foldl (fun n c => n * 10 + (c.toNat - 48)) 0

/-- A text of at least one digit and nothing else. -/
def natural? (s : List Char) : Option Nat :=
  if s ≠ [] ∧ s.all isDigit then some (ofDigits s) else none

/-- A sign at the front, if there is one: whether it is negative, and what stands behind it. -/
def sign (s : List Char) : Bool × List Char :=
  match s with
  | '-' :: rest => (true, rest)
  | '+' :: rest => (false, rest)
  | _ => (false, s)

/-- Whole numbers of 64 bits are below this bound, and not below its negative. -/
def int64Bound : Nat := 9223372036854775808

/-- A whole number of 64 bits with an optional sign. -/
def int64? (s : List Char) : Option Int :=
  let (negative, digits) := sign s
  (natural? digits).bind fun n =>
    if negative then if n ≤ int64Bound then some (-(n : Int)) else none
    else if n < int64Bound then some n else none

/-- A natural number of 64 bits; a plus sign may stand before it. -/
def nat64? (s : List Char) : Option Nat :=
  let digits := match s with
    | '+' :: rest => rest
    | _ => s
  (natural? digits).bind fun n => if n < UInt64.size then some n else none

/-- An exponent: nothing, or an E with a whole number. -/
def exponent? (s : List Char) : Option Int :=
  match s with
  | [] => some 0
  | c :: rest =>
    if c = 'e' ∨ c = 'E' then
      let (negative, digits) := sign rest
      (natural? digits).map fun n => if negative then -(n : Int) else n
    else none

/-- A decimal without a sign: digits, at most one point among or around them, and an exponent. -/
def unsigned? (negative : Bool) (s : List Char) : Option Binary64 :=
  let whole := s.takeWhile isDigit
  let rest := s.dropWhile isDigit
  let (places, rest) := match rest with
    | '.' :: rest => (rest.takeWhile isDigit, rest.dropWhile isDigit)
    | _ => ([], rest)
  if whole.isEmpty && places.isEmpty then none
  else (exponent? rest).map fun e =>
    .ofDecimal negative (ofDigits (whole ++ places)) (e - (places.length : Int))

/-- A text with its ASCII letters in lower case. -/
def lower (s : List Char) : List Char := s.map Char.toLower

/-- A floating-point number: a decimal, or the name of an infinity or of no number, in any case. -/
def float? (s : List Char) : Option Binary64 :=
  let (negative, rest) := sign s
  let name := String.ofList (lower rest)
  if name = "inf" ∨ name = "infinity" then some (.infinite negative)
  else if name = "nan" then some .nan
  else unsigned? negative rest

end VehicleLink.Decimal
