import VehicleLink.Config.Value

/-!
# Selectors

A key of a settings file selects a place inside a table: `a.b` is the member `b` of the value `a`,
and `a[0]` the first item of it. Names are in lower case. Setting a value at a place makes the
tables and lists on the way there, and a table that is set is merged into what is there, member by
member.
-/

namespace VehicleLink.Config

/-- A step into a value. -/
inductive Step where
  | member (name : String)
  /-- An item of a list; negative positions count from its end. -/
  | position (index : Int)

/-- The steps into a table. -/
abbrev Selector := List Step

/-! ## Reading keys -/

/-- A letter of a name in lower case: the ASCII letters, and the Kelvin sign, which is a K. -/
def lowerLetter (c : Char) : Char := if c.toNat = 0x212A then 'k' else c.toLower

def lowerName (s : List Char) : String := String.ofList (s.map lowerLetter)

namespace Selector

/-- The characters of the names in a selector. -/
def isNameChar (c : Char) : Bool := c.isAlphanum || c = ' ' || c = '_' || c = '-'

/-- The blanks around a position. -/
def isSpace (c : Char) : Bool := c = ' ' || c = '\t'

/-- A position up to the bracket behind it. -/
def readPosition (s : List Char) : Option (Int × List Char) :=
  let s := s.dropWhile isSpace
  let (sign, digits) := match s with
    | '-' :: rest => (['-'], rest)
    | _ => ([], s)
  let number := digits.takeWhile Decimal.isDigit
  match (digits.drop number.length).dropWhile isSpace with
  | ']' :: rest => (Decimal.int64? (sign ++ number)).map (·, rest)
  | _ => none

/-- The steps behind the first name, up to the end of the key. -/
def readSteps : Nat → List Char → Option Selector
  | _, [] => some []
  | 0, _ => none
  | fuel + 1, '.' :: rest =>
    let name := rest.takeWhile isNameChar
    if name.isEmpty then none
    else (readSteps fuel (rest.drop name.length)).map (.member (lowerName name) :: ·)
  | fuel + 1, '[' :: rest =>
    (readPosition rest).bind fun (index, rest) =>
      (readSteps fuel rest).map (.position index :: ·)
  | _, _ => none

/-- What a key selects; a key that cannot be read is a name as it is. -/
def ofKey (key : String) : Selector :=
  let s := key.toList
  let name := s.takeWhile isNameChar
  let steps := if name.isEmpty then none else readSteps s.length (s.drop name.length)
  match steps with
  | some steps => .member (lowerName name) :: steps
  | none => [.member (lowerName s)]

end Selector

/-! ## Setting values -/

mutual

/-- Sets a member of a value, which becomes a table if it is none. A table is merged into the
member that is there. -/
def Value.setMember (name : String) : Value → Value → Value
  | .table entries, root =>
    let present := (Named.get? name root.entries).getD (.table [])
    .table (Named.insert name (setMembers entries present) root.entries)
  | v, root => .table (Named.insert name v root.entries)

/-- Sets members of a value, which stays as it is if there are none to set. -/
def setMembers : List (String × Value) → Value → Value
  | [], root => root
  | (name, v) :: rest, root => setMembers rest (Value.setMember (lowerName name.toList) v root)

end

/-- A list made long enough to have a position, and the place of that position in it. -/
def reach (index : Int) (items : List Value) : List Value × Nat :=
  if 0 ≤ index then
    (items ++ List.replicate (index.toNat + 1 - items.length) .null, index.toNat)
  else
    let back := (-index).toNat
    (List.replicate (back - items.length) .null ++ items, items.length - back)

/-- Sets the place in a value that a selector leads to. -/
def Value.set (v : Value) : Selector → Value → Value
  | [], _ => v
  | .position index :: rest, root =>
    let (items, place) := reach index root.items
    .list (items.set place (Value.set v rest (items.getD place .null)))
  | [.member name], root => Value.setMember name v root
  | .member name :: rest, root =>
    let present := (Named.get? name root.entries).getD .null
    .table (Named.insert name (Value.set v rest present) root.entries)

/-- A table with the values of another one set in it, each at the place that its key selects. -/
def Table.setAll (settings : Table) (t : Table) : Table :=
  let root := settings.foldl (fun root (key, v) => Value.set v (Selector.ofKey key) root)
    (Value.table t)
  root.entries

end VehicleLink.Config
