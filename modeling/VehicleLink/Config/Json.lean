import VehicleLink.Config.Value
import VehicleLink.Text.Hex

/-!
# Settings as JSON

A reader of JSON text. Whole numbers of 64 bits stay whole, all other numbers are floating-point
numbers; of a name that comes twice the last value counts.

A floating-point number is found by one multiplication or division of its digits by a power of ten,
each of the three rounded, so it is the nearest one only if the digits and the power are exact.
-/

namespace VehicleLink.Config.Json

def isSpace (c : Char) : Bool := c = ' ' || c = '\t' || c = '\n' || c = '\r'

def skip (s : List Char) : List Char := s.dropWhile isSpace

/-- The number that four hexadecimal digits spell, and the text behind them. -/
def hex4? : List Char → Option (Nat × List Char)
  | a :: b :: c :: d :: rest =>
    match Hex.value? a, Hex.value? b, Hex.value? c, Hex.value? d with
    | some a, some b, some c, some d => some (((a * 16 + b) * 16 + c) * 16 + d, rest)
    | _, _, _, _ => none
  | _ => none

/-- The character that a four-digit escape or a pair of them stands for. -/
def escaped? (s : List Char) : Option (Char × List Char) :=
  (hex4? s).bind fun (n, rest) =>
    if 0xD800 ≤ n ∧ n < 0xDC00 then
      match rest with
      | '\\' :: 'u' :: rest =>
        (hex4? rest).bind fun (m, rest) =>
          if 0xDC00 ≤ m ∧ m < 0xE000 then
            some (Char.ofNat (0x10000 + (n - 0xD800) * 1024 + (m - 0xDC00)), rest)
          else none
      | _ => none
    else if 0xDC00 ≤ n ∧ n < 0xE000 then none
    else some (Char.ofNat n, rest)

/-- The character of a one-letter escape. -/
def simpleEscape? : Char → Option Char
  | '"' => some '"'
  | '\\' => some '\\'
  | '/' => some '/'
  | 'b' => some (Char.ofNat 8)
  | 'f' => some (Char.ofNat 12)
  | 'n' => some '\n'
  | 'r' => some '\r'
  | 't' => some '\t'
  | _ => none

/-- The rest of a string behind its opening quote; at most `fuel` characters are read. -/
def readString : Nat → List Char → Option (List Char × List Char)
  | 0, _ => none
  | _ + 1, [] => none
  | fuel + 1, c :: rest =>
    if c = '"' then some ([], rest)
    else if c.toNat < 0x20 then none
    else if c = '\\' then
      match rest with
      | 'u' :: rest =>
        (escaped? rest).bind fun (c, rest) =>
          (readString fuel rest).map fun (s, rest) => (c :: s, rest)
      | e :: rest =>
        (simpleEscape? e).bind fun c =>
          (readString fuel rest).map fun (s, rest) => (c :: s, rest)
      | [] => none
    else (readString fuel rest).map fun (s, rest) => (c :: s, rest)

/-- The parts of a number's text. -/
structure Numeral where
  negative : Bool
  whole : List Char
  /-- The digits behind the point, if there is one. -/
  places : Option (List Char)
  /-- The power of ten, if it is given. -/
  exponent : Option Int

/-- The power of ten at the front of a text, if there is one: an E with a whole number. -/
def readPower (s : List Char) : Option (Option Int × List Char) :=
  match s with
  | c :: rest =>
    if c = 'e' ∨ c = 'E' then
      let (negative, rest) := Decimal.sign rest
      let digits := rest.takeWhile Decimal.isDigit
      (Decimal.natural? digits).map fun n =>
        (some (if negative then -(n : Int) else n), rest.drop digits.length)
    else some (none, s)
  | [] => some (none, [])

/-- The number at the front of a text: no needless zero before it, digits on both sides of a point,
an exponent with digits. -/
def readNumeral (s : List Char) : Option (Numeral × List Char) :=
  let (negative, s) := match s with
    | '-' :: rest => (true, rest)
    | _ => (false, s)
  let whole := s.takeWhile Decimal.isDigit
  let s := s.drop whole.length
  let (places, s) := match s with
    | '.' :: rest => (some (rest.takeWhile Decimal.isDigit), rest.dropWhile Decimal.isDigit)
    | _ => (none, s)
  if whole.isEmpty ∨ (1 < whole.length ∧ whole.head? = some '0') ∨ places = some [] then none
  else (readPower s).map fun (exponent, rest) => ({ negative, whole, places, exponent }, rest)

/-- A number with more digits behind it, as far as it fits 64 bits, and the digits that are left. -/
def absorb : Nat → List Char → Nat × List Char
  | n, [] => (n, [])
  | n, c :: rest =>
    let next := n * 10 + Decimal.ofDigits [c]
    if next < UInt64.size then absorb next rest else (n, c :: rest)

/-- A number of 64 bits times a power of ten; there is none beyond the finite ones. -/
def scaled? (negative : Bool) (n : Nat) (exponent : Int) : Option Binary64 :=
  let x := Binary64.ofRatio negative n 1
  if n = 0 then some x
  else if exponent < 0 then some (x.overTens (-exponent).toNat)
  else if Binary64.greatestTen < exponent then none
  else
    match x.timesTen exponent.toNat with
    | .finite negative m e => some (.finite negative m e)
    | _ => none

/-- The value of a number. As many digits as fit 64 bits count; what is left of the whole ones
raises the power of ten, what is left of the others is dropped. A whole number of 64 bits with a
sign stays whole, except for zero with a minus sign. -/
def Numeral.value? (s : Numeral) : Option Value :=
  let (n, spilled) := absorb 0 s.whole
  match s.places, s.exponent, spilled with
  | none, none, [] =>
    if s.negative then
      if n ≠ 0 ∧ n ≤ Decimal.int64Bound then some (.int (-(n : Int)))
      else some (.float (Binary64.ofRatio true n 1))
    else if n < Decimal.int64Bound then some (.int n)
    else some (.float (Binary64.ofRatio false n 1))
  | places, exponent, spilled =>
    let places := places.getD []
    let (n, left) := absorb n places
    let taken := places.length - left.length
    (scaled? s.negative n (exponent.getD 0 + spilled.length - taken)).map .float

mutual

/-- One value from the front of the text, nested at most `depth` levels deep. -/
def readValue : Nat → Nat → List Char → Option (Value × List Char)
  | 0, _, _ => none
  | fuel + 1, depth, s =>
    match skip s with
    | '"' :: rest => (readString (rest.length + 1) rest).map fun (s, rest) =>
        (.text (String.ofList s), rest)
    | '[' :: rest =>
      match depth with
      | 0 => none
      | depth + 1 =>
        match skip rest with
        | ']' :: rest => some (.list [], rest)
        | rest => (readItems fuel depth rest).map fun (items, rest) => (.list items, rest)
    | '\x7b' :: rest =>
      match depth with
      | 0 => none
      | depth + 1 =>
        match skip rest with
        | '\x7d' :: rest => some (.table [], rest)
        | rest =>
          (readEntries fuel depth [] rest).map fun (entries, rest) => (.table entries, rest)
    | 't' :: 'r' :: 'u' :: 'e' :: rest => some (.bool true, rest)
    | 'f' :: 'a' :: 'l' :: 's' :: 'e' :: rest => some (.bool false, rest)
    | 'n' :: 'u' :: 'l' :: 'l' :: rest => some (.null, rest)
    | s => (readNumeral s).bind fun (n, rest) => n.value?.map (·, rest)

/-- The items of a list up to its end. -/
def readItems : Nat → Nat → List Char → Option (List Value × List Char)
  | 0, _, _ => none
  | fuel + 1, depth, s =>
    (readValue fuel depth s).bind fun (v, rest) =>
      match skip rest with
      | ',' :: rest => (readItems fuel depth rest).map fun (items, rest) => (v :: items, rest)
      | ']' :: rest => some ([v], rest)
      | _ => none

/-- The entries of a table up to its end, behind others. -/
def readEntries : Nat → Nat → Table → List Char → Option (Table × List Char)
  | 0, _, _, _ => none
  | fuel + 1, depth, before, s =>
    match skip s with
    | '"' :: rest =>
      (readString (rest.length + 1) rest).bind fun (name, rest) =>
        match skip rest with
        | ':' :: rest =>
          (readValue fuel depth rest).bind fun (v, rest) =>
            let entries := Named.insert (String.ofList name) v before
            match skip rest with
            | ',' :: rest => readEntries fuel depth entries rest
            | '\x7d' :: rest => some (entries, rest)
            | _ => none
        | _ => none
    | _ => none

end

/-- How deep values may be nested. -/
def depthLimit : Nat := 127

/-- The table that a text is. -/
def parse? (s : String) : Option Table :=
  let text := s.toList
  match readValue (2 * text.length + 2) depthLimit text with
  | some (.table entries, rest) => if (skip rest).isEmpty then some entries else none
  | _ => none

end VehicleLink.Config.Json
