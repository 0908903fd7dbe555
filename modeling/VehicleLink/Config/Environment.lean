import VehicleLink.Config.Value

/-!
# Settings in the environment

A variable whose name begins with the program's mark is a setting. Its value is a switch or a
number if it reads as one, and a text otherwise.
-/

namespace VehicleLink.Config.Environment

/-- How the names of the variables begin. -/
def mark : List Char := "openxc_ble_".toList

/-- The setting that a variable is for. -/
def setting? (variableName : String) : Option String :=
  let name := Decimal.lower variableName.toList
  if mark.isPrefixOf name then some (String.ofList (name.drop mark.length)) else none

/-- The value that a text reads as. -/
def guess (s : String) : Value :=
  let text := s.toList
  let word := String.ofList (Decimal.lower text)
  if word = "true" then .bool true
  else if word = "false" then .bool false
  else
    match Decimal.int64? text with
    | some n => .int n
    | none =>
      match Decimal.float? text with
      | some x => .float x
      | none => .text s

/-- The settings among variables. -/
def settings (environment : List (String × String)) : Table :=
  environment.filterMap fun (name, s) => (setting? name).map (·, guess s)

end VehicleLink.Config.Environment
