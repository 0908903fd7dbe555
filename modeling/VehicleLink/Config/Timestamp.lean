import VehicleLink.Decimal.Reader

/-!
# Dates and times

The text of a day, a time of day, or both with or without an offset from world time. Reading checks
that there is such a day and such a time; the canonical text joins both with a T, drops the zeros
at the end of a second's fraction, and keeps nine of its digits.
-/

namespace VehicleLink.Config

structure Day where
  year : Nat
  month : Nat
  day : Nat

structure TimeOfDay where
  hour : Nat
  minute : Nat
  second : Nat
  /-- The digits of the second's fraction. -/
  fraction : List Char := []

/-- What a time differs from world time by. -/
inductive ZoneOffset where
  /-- Nothing: it is world time. -/
  | utc
  | ahead (hours minutes : Nat)
  | behind (hours minutes : Nat)

/-- A day, a time of day, or both. -/
inductive Timestamp where
  | day (d : Day)
  | time (t : TimeOfDay)
  | both (d : Day) (t : TimeOfDay) (offset : Option ZoneOffset)

/-! ## Reading -/

/-- A number of just so many digits, and the text behind it. -/
def readDigits (n : Nat) (s : List Char) : Option (Nat × List Char) :=
  let digits := s.take n
  if digits.length = n ∧ digits.all Decimal.isDigit then
    some (Decimal.ofDigits digits, s.drop n)
  else none

/-- A number of two digits up to a greatest one, and the text behind it. -/
def readPair (most : Nat) (s : List Char) : Option (Nat × List Char) :=
  (readDigits 2 s).filter fun (n, _) => n ≤ most

/-- The text behind a character. -/
def expect (c : Char) : List Char → Option (List Char)
  | d :: rest => if d = c then some rest else none
  | [] => none

/-- How many days a month has. -/
def daysInMonth (year month : Nat) : Nat :=
  if month = 2 then
    if year % 4 = 0 ∧ (year % 100 ≠ 0 ∨ year % 400 = 0) then 29 else 28
  else if [4, 6, 9, 11].contains month then 30
  else 31

namespace Day

def read (s : List Char) : Option (Day × List Char) := do
  let (year, s) ← readDigits 4 s
  let s ← expect '-' s
  let (month, s) ← readPair 12 s
  let s ← expect '-' s
  let (day, s) ← readPair (daysInMonth year month) s
  if month = 0 ∨ day = 0 then none else some (⟨year, month, day⟩, s)

end Day

namespace TimeOfDay

def read (s : List Char) : Option (TimeOfDay × List Char) := do
  let (hour, s) ← readPair 23 s
  let s ← expect ':' s
  let (minute, s) ← readPair 59 s
  let s ← expect ':' s
  let (second, s) ← readPair 60 s
  match s with
  | '.' :: rest =>
    let fraction := rest.takeWhile Decimal.isDigit
    if fraction.isEmpty then none
    else some (⟨hour, minute, second, fraction⟩, rest.drop fraction.length)
  | _ => some (⟨hour, minute, second, []⟩, s)

end TimeOfDay

namespace ZoneOffset

/-- The offset that a text is; an empty one is none. -/
def parse? : List Char → Option (Option ZoneOffset)
  | [] => some none
  | ['Z'] => some (some .utc)
  | ['z'] => some (some .utc)
  | c :: s => do
    let (hours, s) ← readPair 23 s
    let s ← expect ':' s
    let (minutes, s) ← readPair 59 s
    if s ≠ [] then none
    else if c = '+' then some (some (.ahead hours minutes))
    else if c = '-' then some (some (.behind hours minutes))
    else none

end ZoneOffset

/-- Whether a character stands between a day and a time. -/
def isTimeMark (c : Char) : Bool := c = 'T' || c = 't' || c = ' '

def Timestamp.parse? (s : List Char) : Option Timestamp :=
  match Day.read s with
  | some (d, []) => some (.day d)
  | some (d, mark :: rest) =>
    if isTimeMark mark then
      (TimeOfDay.read rest).bind fun (t, rest) => (ZoneOffset.parse? rest).map (.both d t)
    else none
  | none =>
    match TimeOfDay.read s with
    | some (t, []) => some (.time t)
    | _ => none

/-! ## Text -/

/-- A number with zeros before it up to a width. -/
def padded (width n : Nat) : List Char :=
  let digits := Nat.toDigits 10 n
  List.replicate (width - digits.length) '0' ++ digits

def Day.text (d : Day) : List Char :=
  padded 4 d.year ++ '-' :: padded 2 d.month ++ '-' :: padded 2 d.day

def TimeOfDay.text (t : TimeOfDay) : List Char :=
  let fraction := ((t.fraction.take 9).reverse.dropWhile (· = '0')).reverse
  padded 2 t.hour ++ ':' :: padded 2 t.minute ++ ':' :: padded 2 t.second ++
    if fraction.isEmpty then [] else '.' :: fraction

/-- The text of an offset; one of no hours and no minutes is ahead. -/
def ZoneOffset.text : ZoneOffset → List Char
  | .utc => ['Z']
  | .ahead hours minutes => '+' :: padded 2 hours ++ ':' :: padded 2 minutes
  | .behind hours minutes =>
    let sign := if hours = 0 ∧ minutes = 0 then '+' else '-'
    sign :: padded 2 hours ++ ':' :: padded 2 minutes

/-- The canonical text of a timestamp. -/
def Timestamp.text : Timestamp → String
  | .day d => String.ofList d.text
  | .time t => String.ofList t.text
  | .both d t offset =>
    let zone := match offset with
      | some z => z.text
      | none => []
    String.ofList (d.text ++ 'T' :: t.text ++ zone)

end VehicleLink.Config
