/-!
# Floating-point numbers and their decimal text

Binary numbers with 53 significant bits, in exact arithmetic. A decimal is rounded to the nearest
one, a tie to the even one; the text of one has the fewest digits that round back to it, the
nearest of those, written positionally.
-/

namespace VehicleLink

/-- A floating-point number. The finite ones are `m * 2 ^ e` with `m` below 2⁵³; unless `e` is the
least exponent, `m` is at least 2⁵². -/
inductive Binary64 where
  | finite (negative : Bool) (m : Nat) (e : Int)
  | infinite (negative : Bool)
  | nan
  deriving DecidableEq

namespace Binary64

def twoTo (n : Nat) : Nat := Nat.pow 2 n

def tenTo (n : Nat) : Nat := Nat.pow 10 n

/-- The least number of 53 bits; normal numbers have at least so many units. -/
def leastNormal : Nat := twoTo 52

def leastExponent : Int := -1074

def greatestExponent : Int := 971

/-- A fraction over a power of two, as a fraction. -/
def scaled (num den : Nat) (e : Int) : Nat × Nat :=
  if 0 ≤ e then (num, den * twoTo e.toNat) else (num * twoTo (-e).toNat, den)

/-- A fraction rounded to the nearest whole number, a tie to the even one. -/
def roundHalfEven (num den : Nat) : Nat :=
  let q := num / den
  let r := num % den
  if den < 2 * r ∨ (2 * r = den ∧ q % 2 = 1) then q + 1 else q

/-- The number nearest to a positive fraction. -/
def ofFraction (negative : Bool) (num den : Nat) : Binary64 :=
  let guess : Int := (num.log2 : Int) - (den.log2 : Int) - 52
  let (n, d) := scaled num den guess
  let e := max (if n < leastNormal * d then guess - 1 else guess) leastExponent
  let (n, d) := scaled num den e
  let m := roundHalfEven n d
  let (m, e) := if m = 2 * leastNormal then (leastNormal, e + 1) else (m, e)
  if greatestExponent < e then .infinite negative else .finite negative m e

def nonzero : Binary64 → Bool
  | .finite _ m _ => m ≠ 0
  | _ => true

/-- The number nearest to a fraction. -/
def ofRatio (negative : Bool) (num den : Nat) : Binary64 :=
  if num = 0 then .finite negative 0 leastExponent else ofFraction negative num den

/-- A number times a fraction, rounded. -/
def scaleBy (num den : Nat) : Binary64 → Binary64
  | .finite negative m e =>
    ofRatio negative (m * twoTo e.toNat * num) (twoTo (-e).toNat * den)
  | x => x

/-- A power of ten as a fraction, after rounding. -/
def roundedTen (n : Nat) : Nat × Nat :=
  match ofFraction false (tenTo n) 1 with
  | .finite _ m e => (m * twoTo e.toNat, twoTo (-e).toNat)
  | _ => (1, 1)

/-- A number times a power of ten. The power and the product are rounded. -/
def timesTen (n : Nat) (x : Binary64) : Binary64 :=
  let (num, den) := roundedTen n
  x.scaleBy num den

/-- A number over a power of ten. The power and the quotient are rounded. -/
def overTen (n : Nat) (x : Binary64) : Binary64 :=
  let (num, den) := roundedTen n
  x.scaleBy den num

def greatestTen : Nat := 308

/-- A number over a power of ten, in steps of the greatest finite one; zero stays as it is. -/
def overTens (n : Nat) (x : Binary64) : Binary64 :=
  if n ≤ greatestTen then x.overTen n
  else if x.nonzero then overTens (n - greatestTen) (x.overTen greatestTen)
  else x
termination_by n
decreasing_by simp only [greatestTen] at *; omega

def digitCount (n : Nat) : Nat := (Nat.toDigits 10 n).length

/-- The number nearest to `digits * 10 ^ exponent`. Beyond the range of finite numbers the power
of ten is not computed. -/
def ofDecimal (negative : Bool) (digits : Nat) (exponent : Int) : Binary64 :=
  let size := exponent + digitCount digits
  if digits = 0 ∨ size < -330 then .finite negative 0 leastExponent
  else if 310 < size then .infinite negative
  else if 0 ≤ exponent then ofFraction negative (digits * tenTo exponent.toNat) 1
  else ofFraction negative digits (tenTo (-exponent).toNat)

/-- The nearest natural number below `bound`, a half going up; negative numbers and no number give
zero, numbers beyond the bound the greatest one below it. -/
def clampToNat (bound : Nat) : Binary64 → Nat
  | .finite false m e =>
    let n :=
      if 0 ≤ e then m * twoTo e.toNat
      else (2 * m + twoTo (-e).toNat) / (2 * twoTo (-e).toNat)
    min n (bound - 1)
  | .infinite false => bound - 1
  | _ => 0

/-! ## Decimal text -/

/-- Compares `a * 10 ^ i` with `n * 2 ^ j`. -/
def compareScaled (a : Nat) (i : Int) (n : Nat) (j : Int) : Ordering :=
  compare (a * tenTo i.toNat * twoTo (-j).toNat) (n * twoTo j.toNat * tenTo (-i).toNat)

/-- Whether the decimal `digits * 10 ^ exponent` rounds to `m * 2 ^ e`: it lies between the points
halfway to the two neighbours, which themselves round to an even `m`. -/
def readsBack (m : Nat) (e : Int) (digits : Nat) (exponent : Int) : Bool :=
  let below := if m = leastNormal ∧ leastExponent < e then 4 * m - 1 else 4 * m - 2
  let low := compareScaled digits exponent below (e - 2)
  let high := compareScaled digits exponent (4 * m + 2) (e - 2)
  let even := m % 2 = 0
  (low = .gt || (even && low = .eq)) && (high = .lt || (even && high = .eq))

/-- The least `k` with `m * 2 ^ e` below `10 ^ k`. -/
def magnitude (m : Nat) (e : Int) : Int :=
  let (n, d) := scaled m 1 (-e)
  if d ≤ n then digitCount (n / d)
  else
    match (List.range 330).find? fun j => decide (d ≤ n * tenTo (j + 1)) with
    | some j => -(j : Int)
    | none => -330

/-- The whole number of steps of `10 ^ s` in `m * 2 ^ e`. -/
def steps (m : Nat) (e s : Int) : Nat :=
  (m * twoTo e.toNat * tenTo (-s).toNat) / (twoTo (-e).toNat * tenTo s.toNat)

/-- Of the two points around `m * 2 ^ e` on the grid of `10 ^ s`, the one that rounds back to it;
of two the nearer, of two as near the even one. -/
def onGrid? (m : Nat) (e s : Int) : Option Nat :=
  let d := steps m e s
  let lower := readsBack m e d s
  let upper := readsBack m e (d + 1) s
  if lower && upper then
    match compareScaled (2 * d + 1) s (2 * m) e with
    | .gt => some d
    | .lt => some (d + 1)
    | .eq => some (if d % 2 = 0 then d else d + 1)
  else if lower then some d
  else if upper then some (d + 1)
  else none

/-- The fewest digits that round back, with their power of ten. -/
def shortest (m : Nat) (e : Int) : Nat × Int :=
  let k := magnitude m e
  match (List.range 17).findSome? fun n =>
      let s := k - (n + 1 : Nat)
      (onGrid? m e s).map (·, s) with
  | some found => found
  | none => (steps m e (min e 0), min e 0)

/-- Digits with a power of ten, written positionally. -/
def positional (digits : Nat) (exponent : Int) : List Char :=
  let text := Nat.toDigits 10 digits
  if 0 ≤ exponent then text ++ List.replicate exponent.toNat '0'
  else
    let places := (-exponent).toNat
    let text := List.replicate (places + 1 - text.length) '0' ++ text
    let whole := text.take (text.length - places)
    let decimals := ((text.drop (text.length - places)).reverse.dropWhile (· = '0')).reverse
    if decimals.isEmpty then whole else whole ++ '.' :: decimals

def text : Binary64 → String
  | .nan => "NaN"
  | .infinite negative => if negative then "-inf" else "inf"
  | .finite negative m e =>
    let digits :=
      if m = 0 then ['0']
      else
        let (d, s) := shortest m e
        positional d s
    String.ofList (if negative then '-' :: digits else digits)

end Binary64

end VehicleLink
