import VehicleLink.Decimal.Reader
import VehicleLink.Duration
import VehicleLink.Named

/-!
# Configured values

The values that settings files and the environment hold, and how one is read as the kind that a
setting wants: a switch takes numbers and words, a text takes numbers and switches.
-/

namespace VehicleLink.Config

/-- A configured value. -/
inductive Value where
  | null
  | bool (b : Bool)
  | int (n : Int)
  | float (x : Binary64)
  | text (s : String)
  | list (items : List Value)
  | table (entries : List (String × Value))
  deriving Inhabited

/-- Configured values by name. -/
abbrev Table := Named Value

namespace Value

/-- The entries of a table; any other value has none. -/
def entries : Value → Table
  | .table entries => entries
  | _ => []

/-- The items of a list; any other value has none. -/
def items : Value → List Value
  | .list items => items
  | _ => []

/-- The value as a text. -/
def asText? : Value → Option String
  | .text s => some s
  | .bool b => some (if b then "true" else "false")
  | .int n => some (toString n)
  | .float x => some x.text
  | _ => none

/-- The words for on and off. -/
def switch? (s : String) : Option Bool :=
  let word := String.ofList (Decimal.lower s.toList)
  if ["true", "on", "yes"].contains word then some true
  else if ["false", "off", "no"].contains word then some false
  else none

/-- The value as a switch. -/
def asBool? : Value → Option Bool
  | .bool b => some b
  | .int n => some (n ≠ 0)
  | .float x => some x.nonzero
  | .text s => if s = "1" then some true else if s = "0" then some false else switch? s
  | _ => none

/-- The value as a natural number of 64 bits. -/
def asNat? : Value → Option Nat
  | .bool b => some (if b then 1 else 0)
  | .int n => if 0 ≤ n then some n.toNat else none
  | .float x => some (x.clampToNat UInt64.size)
  | .text s =>
    match switch? s with
    | some b => some (if b then 1 else 0)
    | none => Decimal.nat64? s.toList
  | _ => none

/-- The value as a duration: its text has to spell one. -/
def asDuration? (v : Value) : Option Nanos := v.asText?.bind Duration.parse?

end Value

end VehicleLink.Config
