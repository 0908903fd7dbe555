import VehicleLink.Config.Toml.Section
import VehicleLink.Config.Toml.Word

/-!
# Settings as lines

A reader of settings files made of lines "name = value", with comments, headers of tables, strings
in four kinds of quotes, numbers, switches, dates, lists and tables in one line. A name may be given
once.
-/

namespace VehicleLink.Config.Toml

mutual

/-- One value from the front of the text, nested at most `depth` levels deep. -/
def readValue : Nat → Nat → List Char → Option (Value × List Char)
  | 0, _, _ => none
  | fuel + 1, depth, s =>
    match s, depth with
    | '[' :: _, 0 => none
    | '[' :: rest, depth + 1 =>
      (readItems fuel depth rest).map fun (items, rest) => (.list items, rest)
    | '\x7b' :: _, 0 => none
    | '\x7b' :: rest, depth + 1 =>
      match skip rest with
      | '\x7d' :: rest => some (.table [], rest)
      | rest =>
        (readEntries fuel depth {} rest).map fun (table, rest) =>
          (.table (tableOf table.entries), rest)
    | '"' :: _, _ => (readString s).map fun (s, rest) => (.text (String.ofList s), rest)
    | '\'' :: _, _ => (readString s).map fun (s, rest) => (.text (String.ofList s), rest)
    | s, _ =>
      let (word, rest) := splitWord s
      (word? word).map (·, rest)

/-- The items of a list up to its end; a comma may stand behind the last one. -/
def readItems : Nat → Nat → List Char → Option (List Value × List Char)
  | 0, _, _ => none
  | fuel + 1, depth, s =>
    (skipLines (s.length + 1) s).bind fun s =>
      match s with
      | ']' :: rest => some ([], rest)
      | _ =>
        (readValue fuel depth s).bind fun (v, rest) =>
          (skipLines (rest.length + 1) rest).bind fun rest =>
            match rest with
            | ',' :: rest => (readItems fuel depth rest).map fun (items, rest) => (v :: items, rest)
            | ']' :: rest => some ([v], rest)
            | _ => none

/-- The entries of a table in one line up to its end, behind others. -/
def readEntries : Nat → Nat → Section → List Char → Option (Section × List Char)
  | 0, _, _, _ => none
  | fuel + 1, depth, table, s =>
    (readName s).bind fun (name, rest) =>
      match rest with
      | '=' :: rest =>
        (readValue fuel depth (skip rest)).bind fun (v, rest) =>
          (table.add name v).bind fun table =>
            match skip rest with
            | ',' :: rest => readEntries fuel depth table rest
            | '\x7d' :: rest => some (table, rest)
            | _ => none
      | _ => none

end

/-- What stands behind the end of a line that holds nothing more than a comment. -/
def finishLine (s : List Char) : Option (List Char) :=
  (skipComment (skip s)).bind fun rest =>
    match rest with
    | [] => some []
    | _ => lineEnd? rest

/-- A settings file as far as it was read. -/
structure Document where
  root : Section := {}
  /-- The table that the last header opened. -/
  current : List String := []

namespace Document

/-- The header of a table or of an item of a list of tables. -/
def readHeader (s : List Char) (d : Document) : Option (Document × List Char) :=
  match s with
  | '[' :: '[' :: rest =>
    (readName rest).bind fun (name, rest) =>
      match rest with
      | ']' :: ']' :: rest => (d.root.openItem name).map fun root => (⟨root, name⟩, rest)
      | _ => none
  | '[' :: rest =>
    (readName rest).bind fun (name, rest) =>
      match rest with
      | ']' :: rest => (d.root.openTable name).map fun root => (⟨root, name⟩, rest)
      | _ => none
  | _ => none

/-- A line with a name and a value, which goes into the table that the last header opened. -/
def readSetting (s : List Char) (d : Document) : Option (Document × List Char) :=
  (readName s).bind fun (name, rest) =>
    match rest with
    | '=' :: rest =>
      (readValue (2 * rest.length + 2) depthLimit (skip rest)).bind fun (v, rest) =>
        (d.root.descend .implied (Section.add name v) d.current).map fun root =>
          ({ d with root }, rest)
    | _ => none

/-- All lines of a text. -/
def readLines : Nat → Document → List Char → Option Document
  | 0, _, _ => none
  | fuel + 1, d, s =>
    (skipLines (s.length + 1) s).bind fun s =>
      match s with
      | [] => some d
      | _ =>
        let line := if s.head? = some '[' then d.readHeader s else d.readSetting s
        line.bind fun (d, rest) => (finishLine rest).bind (readLines fuel d)

end Document

/-- The mark of the byte order, which may stand before a text. -/
def byteOrderMark : Char := Char.ofNat 0xFEFF

/-- The text without a mark of the byte order at its front. -/
def dropMark (s : List Char) : List Char :=
  if s.head? = some byteOrderMark then s.drop 1 else s

/-- The table that a text is. -/
def parse? (s : String) : Option Table :=
  let text := dropMark s.toList
  (Document.readLines (text.length + 1) {} text).map fun d => tableOf d.root.entries

end VehicleLink.Config.Toml
