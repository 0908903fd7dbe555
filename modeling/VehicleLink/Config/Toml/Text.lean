import VehicleLink.Decimal.Reader
import VehicleLink.Text.Hex

/-!
# Text of a settings file

The blanks, comments, strings and names that settings files in lines are made of. Every reader
gives the text behind what it read, and nothing if the text is at fault.
-/

namespace VehicleLink.Config.Toml

/-- The characters of a name without quotes. -/
def isBare (c : Char) : Bool :=
  Decimal.isDigit c || (65 ≤ c.toNat && c.toNat ≤ 90) || (97 ≤ c.toNat && c.toNat ≤ 122)
    || c = '_' || c = '-'

/-- The blanks within a line. -/
def isSpace (c : Char) : Bool := c = ' ' || c = '\t'

/-- The text behind the blanks at its front. -/
def skip (s : List Char) : List Char := s.dropWhile isSpace

/-- Control characters other than the tab; they stand nowhere but in line ends. -/
def isControl (c : Char) : Bool := (c.toNat < 0x20 && c ≠ '\t') || c.toNat = 0x7F

/-- What stands behind a line end. -/
def lineEnd? : List Char → Option (List Char)
  | '\n' :: rest => some rest
  | '\r' :: '\n' :: rest => some rest
  | _ => none

/-- What stands behind a comment, if there is one. -/
def skipComment (s : List Char) : Option (List Char) :=
  match s with
  | '#' :: rest =>
    let comment := rest.takeWhile fun c => c ≠ '\n'
    let body := if comment.getLast? = some '\r' then comment.dropLast else comment
    if body.any isControl then none else some (rest.drop body.length)
  | _ => some s

/-- What stands behind blanks, comments and line ends. -/
def skipLines : Nat → List Char → Option (List Char)
  | 0, _ => none
  | fuel + 1, s =>
    (skipComment (skip s)).bind fun rest =>
      match lineEnd? rest with
      | some rest => skipLines fuel rest
      | none => some rest

/-! ## Strings -/

/-- The number that hexadecimal digits spell. -/
def ofHex? (s : List Char) : Option Nat :=
  s.foldl (fun n c => n.bind fun n => (Hex.value? c).map fun d => n * 16 + d) (some 0)

/-- The character with a code of `n` hexadecimal digits. -/
def codePoint? (n : Nat) (s : List Char) : Option (Char × List Char) :=
  let digits := s.take n
  if digits.length < n then none
  else
    (ofHex? digits).bind fun v =>
      if v.isValidChar then some (Char.ofNat v, s.drop n) else none

/-- The character of an escape behind its backslash. -/
def escape? : List Char → Option (Char × List Char)
  | 'b' :: rest => some (Char.ofNat 8, rest)
  | 't' :: rest => some ('\t', rest)
  | 'n' :: rest => some ('\n', rest)
  | 'f' :: rest => some (Char.ofNat 12, rest)
  | 'r' :: rest => some ('\r', rest)
  | '"' :: rest => some ('"', rest)
  | '\\' :: rest => some ('\\', rest)
  | 'u' :: rest => codePoint? 4 rest
  | 'U' :: rest => codePoint? 8 rest
  | _ => none

/-- The rest of a string with escapes, on one line. -/
def readBasic : Nat → List Char → Option (List Char × List Char)
  | 0, _ => none
  | _ + 1, [] => none
  | _ + 1, '"' :: rest => some ([], rest)
  | fuel + 1, '\\' :: rest =>
    (escape? rest).bind fun (c, rest) => (readBasic fuel rest).map fun (s, rest) => (c :: s, rest)
  | fuel + 1, c :: rest =>
    if isControl c then none else (readBasic fuel rest).map fun (s, rest) => (c :: s, rest)

/-- The rest of a string without escapes, on one line. -/
def readLiteral (s : List Char) : Option (List Char × List Char) :=
  let content := s.takeWhile (· ≠ '\'')
  match s.drop content.length with
  | '\'' :: rest => if content.any isControl then none else some (content, rest)
  | _ => none

/-- How many quotes are at the front of a text. -/
def quotes (quote : Char) (s : List Char) : Nat := (s.takeWhile (· = quote)).length

/-- The text behind blanks and line ends. -/
def dropBlankLines : List Char → List Char
  | ' ' :: rest => dropBlankLines rest
  | '\t' :: rest => dropBlankLines rest
  | '\n' :: rest => dropBlankLines rest
  | '\r' :: '\n' :: rest => dropBlankLines rest
  | s => s

/-- What stands behind a backslash at the end of a line: the blanks and line ends that it hides. -/
def hidden? (s : List Char) : Option (List Char) := (lineEnd? (skip s)).map dropBlankLines

/-- The rest of a string in triple quotes, with escapes or without. Up to two quotes before the
closing ones belong to it. -/
def readLong (quote : Char) (escapes : Bool) : Nat → List Char → Option (List Char × List Char)
  | 0, _ => none
  | _ + 1, [] => none
  | fuel + 1, c :: rest =>
    let n := quotes quote (c :: rest)
    if 3 ≤ n then
      if n ≤ 5 then some (List.replicate (n - 3) quote, (c :: rest).drop n) else none
    else if c = '\\' ∧ escapes then
      match hidden? rest with
      | some rest => readLong quote escapes fuel rest
      | none =>
        (escape? rest).bind fun (c, rest) =>
          (readLong quote escapes fuel rest).map fun (s, rest) => (c :: s, rest)
    else
      match lineEnd? (c :: rest) with
      | some rest => (readLong quote escapes fuel rest).map fun (s, rest) => ('\n' :: s, rest)
      | none =>
        if isControl c then none
        else (readLong quote escapes fuel rest).map fun (s, rest) => (c :: s, rest)

/-- The text without a line end at its front. -/
def dropLineEnd (s : List Char) : List Char := (lineEnd? s).getD s

/-- A string of any kind. -/
def readString (s : List Char) : Option (List Char × List Char) :=
  let fuel := s.length + 1
  match s with
  | '"' :: '"' :: '"' :: rest => readLong '"' true fuel (dropLineEnd rest)
  | '\'' :: '\'' :: '\'' :: rest => readLong '\'' false fuel (dropLineEnd rest)
  | '"' :: rest => readBasic fuel rest
  | '\'' :: rest => readLiteral rest
  | _ => none

/-! ## Names -/

/-- One part of a name. -/
def readPart (s : List Char) : Option (String × List Char) :=
  match s with
  | '"' :: rest =>
    (readBasic (s.length + 1) rest).map fun (name, rest) => (String.ofList name, rest)
  | '\'' :: rest => (readLiteral rest).map fun (name, rest) => (String.ofList name, rest)
  | _ =>
    let name := s.takeWhile isBare
    if name.isEmpty then none else some (String.ofList name, s.drop name.length)

/-- The parts of a name, with points between them. -/
def readParts : Nat → List Char → Option (List String × List Char)
  | 0, _ => none
  | fuel + 1, s =>
    (readPart (skip s)).bind fun (part, rest) =>
      match skip rest with
      | '.' :: rest => (readParts fuel rest).map fun (parts, rest) => (part :: parts, rest)
      | rest => some ([part], rest)

/-- How deep values may be nested, and how many parts a name may have. -/
def depthLimit : Nat := 79

/-- A name, by its parts. -/
def readName (s : List Char) : Option (List String × List Char) :=
  (readParts (s.length + 1) s).filter fun (parts, _) => parts.length ≤ depthLimit

end VehicleLink.Config.Toml
