import VehicleLink.Config.Value

/-!
# Tables of a settings file

The tables that headers and dotted names build up. A table that a header opened is not opened
again; one that was only implied by the header of a table inside it still may be. A dotted name
reaches into tables that are implied or made by dotted names, not into opened ones, and a value is
put into a table only in the way the table was made: a plain name into an opened or implied one, a
dotted name into a dotted one.
-/

namespace VehicleLink.Config.Toml

/-- How a table came to be. -/
inductive Origin where
  /-- By its own header. -/
  | opened
  /-- By the header of a table inside it. -/
  | implied
  /-- By a dotted name. -/
  | dotted
  deriving DecidableEq

/-- What a name stands for. -/
inductive Entry where
  | value (v : Value)
  | table (origin : Origin) (entries : List (String × Entry))
  /-- A list of tables, each with a header of its own. -/
  | tables (items : List (List (String × Entry)))

/-- A table that is being filled. -/
structure Section where
  origin : Origin := .opened
  entries : Named Entry := []

mutual

/-- The value that an entry has in the end. -/
def Entry.toValue : Entry → Value
  | .value v => v
  | .table _ entries => .table (tableOf entries)
  | .tables items => .list (tablesOf items)

/-- The table that entries make up. -/
def tableOf : List (String × Entry) → Table
  | [] => []
  | (name, e) :: rest => (name, e.toValue) :: tableOf rest

/-- The tables that lists of entries make up. -/
def tablesOf : List (List (String × Entry)) → List Value
  | [] => []
  | entries :: rest => .table (tableOf entries) :: tablesOf rest

end

namespace Section

/-- Lets a name stand for something. -/
def assign (name : String) (e : Entry) (s : Section) : Section :=
  { s with entries := Named.insert name e s.entries }

/-- Changes the table at a path; tables that are missing on the way come to be in the way given.
Of a list of tables the last one is meant. -/
def descend (origin : Origin) (f : Section → Option Section) :
    List String → Section → Option Section
  | [], s => f s
  | name :: rest, s =>
    match Named.get? name s.entries with
    | none =>
      (descend origin f rest { origin }).map fun inner =>
        s.assign name (.table inner.origin inner.entries)
    | some (.value _) => none
    | some (.table made entries) =>
      if origin = .dotted ∧ made = .opened then none
      else
        (descend origin f rest ⟨made, entries⟩).map fun inner =>
          s.assign name (.table inner.origin inner.entries)
    | some (.tables items) =>
      match items.getLast? with
      | none => none
      | some entries =>
        (descend origin f rest ⟨.opened, entries⟩).map fun inner =>
          s.assign name (.tables (items.dropLast ++ [inner.entries]))

/-- Puts a value behind a name of the table itself; `byDots` tells whether a dotted name led to the
table. -/
def put (byDots : Bool) (name : String) (v : Value) (s : Section) : Option Section :=
  if byDots != (s.origin == .dotted) then none
  else if (Named.get? name s.entries).isSome then none
  else some (s.assign name (.value v))

/-- Takes the value of a name with points in it. -/
def add (path : List String) (v : Value) (s : Section) : Option Section :=
  match path.getLast? with
  | none => none
  | some name =>
    let way := path.dropLast
    s.descend .dotted (put (!way.isEmpty) name v) way

/-- Opens a table by its header. -/
def openTable (path : List String) (s : Section) : Option Section :=
  match path.getLast? with
  | none => none
  | some name =>
    s.descend .implied (fun parent =>
      match Named.get? name parent.entries with
      | none => some (parent.assign name (.table .opened []))
      | some (.table .implied entries) => some (parent.assign name (.table .opened entries))
      | _ => none) path.dropLast

/-- Opens another item of a list of tables by its header. -/
def openItem (path : List String) (s : Section) : Option Section :=
  match path.getLast? with
  | none => none
  | some name =>
    s.descend .implied (fun parent =>
      match Named.get? name parent.entries with
      | none => some (parent.assign name (.tables [[]]))
      | some (.tables items) => some (parent.assign name (.tables (items ++ [[]])))
      | _ => none) path.dropLast

end Section

end VehicleLink.Config.Toml
