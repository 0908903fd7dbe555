import VehicleLink.Config.Timestamp
import VehicleLink.Config.Value
import VehicleLink.Config.Toml.Text

/-!
# Words of a settings file

The values without quotes: numbers in four bases, floating-point numbers, switches, dates and
times.
-/

namespace VehicleLink.Config.Toml

/-- Digits with single underscores between them, without these. -/
def digits? (isDigit : Char → Bool) (s : List Char) : Option (List Char) :=
  let parts := (s.splitOn '_' : List (List Char))
  if parts.all fun part => !part.isEmpty && part.all isDigit then some parts.flatten else none

/-- A whole number in one of the bases that are marked by a letter. -/
def radix? (base : Nat) (s : List Char) : Option Int :=
  let isDigit (c : Char) : Bool :=
    match Hex.value? c with
    | some d => d < base
    | none => false
  (digits? isDigit s).bind fun digits =>
    let n := digits.foldl (fun n c => n * base + (Hex.value? c).getD 0) 0
    if n < Decimal.int64Bound then some n else none

/-- Digits without a needless zero at the front. -/
def plain? (s : List Char) : Option (List Char) :=
  (digits? Decimal.isDigit s).bind fun digits =>
    if 1 < digits.length ∧ digits.head? = some '0' then none else some digits

/-- A whole number. -/
def int? (s : List Char) : Option Int :=
  match s with
  | '0' :: 'x' :: rest => radix? 16 rest
  | '0' :: 'o' :: rest => radix? 8 rest
  | '0' :: 'b' :: rest => radix? 2 rest
  | _ =>
    let (negative, rest) := Decimal.sign s
    (plain? rest).bind fun digits => Decimal.int64? (if negative then '-' :: digits else digits)

/-- The text up to an E, and what stands behind it. -/
def splitExponent (s : List Char) : List Char × Option (List Char) :=
  let mantissa := s.takeWhile fun c => c ≠ 'e' && c ≠ 'E'
  match s.drop mantissa.length with
  | _ :: rest => (mantissa, some rest)
  | [] => (mantissa, none)

/-- A floating-point number with a point or an exponent. -/
def decimal? (negative : Bool) (s : List Char) : Option Binary64 :=
  let (mantissa, power) := splitExponent s
  let whole := mantissa.takeWhile (· ≠ '.')
  let places := mantissa.drop whole.length
  if places.isEmpty && power.isNone then none
  else do
    let whole ← plain? whole
    let places ← match places with
      | _ :: places => digits? Decimal.isDigit places
      | [] => some []
    let power ← match power with
      | none => some 0
      | some power =>
        let (down, power) := Decimal.sign power
        (digits? Decimal.isDigit power).map fun digits =>
          let n : Int := Decimal.ofDigits digits
          if down then -n else n
    let digits := Decimal.ofDigits (whole ++ places)
    some (.ofDecimal negative digits (power - (places.length : Int)))

/-- A floating-point number. One too great for the finite ones is refused if it is positive. -/
def float? (s : List Char) : Option Binary64 :=
  let (negative, rest) := Decimal.sign s
  if rest = "inf".toList then some (.infinite negative)
  else if rest = "nan".toList then some .nan
  else (decimal? negative rest).filter (· ≠ .infinite false)

/-- The value of a word: a switch, a number, or the text of a day or a time. -/
def word? (s : List Char) : Option Value :=
  if s = "true".toList then some (.bool true)
  else if s = "false".toList then some (.bool false)
  else
    match int? s, float? s with
    | some n, _ => some (.int n)
    | none, some x => some (.float x)
    | none, none => (Timestamp.parse? s).map fun t => .text t.text

/-- The characters of words. -/
def isWordChar (c : Char) : Bool := isBare c || c = '+' || c = '.' || c = ':'

/-- The word at the front of a text, and the text behind it. A blank may stand in it between a day
and a time. -/
def splitWord (s : List Char) : List Char × List Char :=
  let word := s.takeWhile isWordChar
  let rest := s.drop word.length
  match Day.read word, rest with
  | some (_, []), ' ' :: c :: more =>
    if Decimal.isDigit c then
      (word ++ ' ' :: (c :: more).takeWhile isWordChar, (c :: more).dropWhile isWordChar)
    else (word, rest)
  | _, _ => (word, rest)

end VehicleLink.Config.Toml
