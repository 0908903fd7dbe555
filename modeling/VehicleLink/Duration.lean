import VehicleLink.Text.Blank

/-!
# Durations

A duration is a number of nanoseconds. Its text is a sequence of numbers with units that add up,
such as "1m 30s" or "1.5h"; "0" alone is zero. A fraction has to come out even. Numbers and the
running total are bounded to 64 bits (the total by its whole seconds), and a text beyond that has
no value.
-/

namespace VehicleLink

/-- A length of time, or an instant counted from a fixed origin, in nanoseconds. -/
abbrev Nanos := Nat

namespace Duration

def ofMillis (n : Nat) : Nanos := n * 1000000

def ofSeconds (n : Nat) : Nanos := n * 1000000000

/-- A number that fits 64 bits, or nothing. -/
def bounded (n : Nat) : Option Nat := if n < UInt64.size then some n else none

/-- The units, by size. -/
inductive Scale where
  | nanoseconds
  | microseconds
  | milliseconds
  /-- A whole number of seconds. -/
  | seconds (n : Nat)

def units : List (List String × Scale) :=
  [ (["nanos", "nsec", "ns"], .nanoseconds),
    (["usec", "us", "µs"], .microseconds),
    (["millis", "msec", "ms"], .milliseconds),
    (["seconds", "second", "secs", "sec", "s"], .seconds 1),
    (["minutes", "minute", "mins", "min", "m"], .seconds 60),
    (["hours", "hour", "hrs", "hr", "h"], .seconds 3600),
    (["days", "day", "d"], .seconds 86400),
    (["weeks", "week", "wks", "wk", "w"], .seconds 604800),
    (["months", "month", "M"], .seconds 2630016),
    (["years", "year", "yrs", "yr", "y"], .seconds 31557600) ]

def scale? (name : List Char) : Option Scale :=
  (units.find? fun unit => unit.1.contains (String.ofList name)).map (·.2)

/-- The decimal places of a number: digits after the point, over a power of ten. -/
structure Fraction where
  numerator : Nat
  denominator : Nat

/-- The whole number of steps in so many steps times a fraction. Both the product has to fit
64 bits and the division to leave nothing over. -/
def Fraction.times? (f : Fraction) (steps : Nat) : Option Nat :=
  (bounded (f.numerator * steps)).bind fun n =>
    if n % f.denominator = 0 then some (n / f.denominator) else none

/-- The nanoseconds that a fraction of a unit stands for, if they are a whole number of the steps
that the unit is divided into: nanoseconds, or seconds for the units above a minute. -/
def Fraction.nanos? (f : Fraction) : Scale → Option Nat
  | .nanoseconds => none
  | .microseconds => f.times? 1000
  | .milliseconds => f.times? 1000000
  | .seconds n =>
    if n ≤ 60 then f.times? (ofSeconds n) else (f.times? n).map ofSeconds

/-- A total plus a number of nanoseconds, if both the part below a second and the whole seconds
stay within 64 bits. -/
def add? (total nanos : Nat) : Option Nat :=
  let sum := total + nanos
  if sum / 1000000000 < UInt64.size then some sum else none

/-- A total plus a count of nanoseconds that is added below the second. -/
def addBelow? (total nanos : Nat) : Option Nat :=
  if total % 1000000000 + nanos < UInt64.size then add? total nanos else none

/-- A total plus so many of a unit and a fraction of one. -/
def addUnits? (total count : Nat) (fraction : Option Fraction) (scale : Scale) : Option Nat := do
  let whole ← match scale with
    | .nanoseconds => addBelow? total count
    | .microseconds => (bounded (count * 1000)).bind (addBelow? total)
    | .milliseconds => (bounded (count * 1000000)).bind (addBelow? total)
    | .seconds n => (bounded (count * n)).bind fun s => add? total (ofSeconds s)
  match fraction with
  | none => some whole
  | some f => (f.nanos? scale).bind (add? whole)

/-- The letters of unit names: the ASCII ones and the micro sign. -/
def isUnitLetter (c : Char) : Bool :=
  let n := c.toNat
  (65 ≤ n && n ≤ 90) || (97 ≤ n && n ≤ 122) || n == 0xB5

def digit? (c : Char) : Option Nat :=
  if 48 ≤ c.toNat ∧ c.toNat ≤ 57 then some (c.toNat - 48) else none

/-- Where a reader of duration text stands. -/
inductive Place where
  /-- Before a number, after at least `parts` earlier ones. -/
  | start
  /-- Inside the whole part of a number. -/
  | whole (count : Nat)
  /-- Behind the point, with the digits so far and whether one was not zero. -/
  | decimals (count : Nat) (f : Fraction)
  /-- Inside the name of a unit, its letters reversed. -/
  | unit (count : Nat) (fraction : Option Fraction) (name : List Char)

/-- Reads on from a place with a total. White space may stand anywhere but inside a unit's name,
where it ends the name; a digit behind a name begins the next number. -/
def readFrom : Place → Nat → List Char → Option Nat
  | .start, total, [] => some total
  | .whole _, _, [] => none
  | .decimals _ _, _, [] => none
  | .unit count fraction name, total, [] =>
    (scale? name.reverse).bind (addUnits? total count fraction)
  | .start, total, c :: rest =>
    if Text.isBlank c then readFrom .start total rest
    else (digit? c).bind fun d => readFrom (.whole d) total rest
  | .whole count, total, c :: rest =>
    match digit? c with
    | some d => (bounded (count * 10 + d)).bind fun n => readFrom (.whole n) total rest
    | none =>
      if Text.isBlank c then readFrom (.whole count) total rest
      else if isUnitLetter c then readFrom (.unit count none [c]) total rest
      else if c = '.' then readFrom (.decimals count ⟨0, 1⟩) total rest
      else none
  | .decimals count f, total, c :: rest =>
    match digit? c with
    | some d =>
      match bounded (f.numerator * 10 + d), bounded (f.denominator * 10) with
      | some n, some m => readFrom (.decimals count ⟨n, m⟩) total rest
      | _, _ => none
    | none =>
      if Text.isBlank c then readFrom (.decimals count f) total rest
      else if isUnitLetter c ∧ f.denominator ≠ 1 then readFrom (.unit count (some f) [c]) total rest
      else none
  | .unit count fraction name, total, c :: rest =>
    let finished := (scale? name.reverse).bind (addUnits? total count fraction)
    match digit? c with
    | some d => finished.bind fun t => readFrom (.whole d) t rest
    | none =>
      if Text.isBlank c then finished.bind fun t => readFrom .start t rest
      else if isUnitLetter c then readFrom (.unit count fraction (c :: name)) total rest
      else none

/-- The duration that a text stands for. -/
def parse? (s : String) : Option Nanos :=
  let text := s.toList
  if text = ['0'] then some 0
  else if text.all Text.isBlank then none
  else readFrom .start 0 text

end Duration

end VehicleLink
