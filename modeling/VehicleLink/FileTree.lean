import VehicleLink.Named

/-!
# A tree of files

Directories and files below one root, with the operations that a store needs and the conditions
under which each of them fails: a file takes no entries, a directory is not read, written or
replaced, and an entry needs the directory it is in.

A path says how to walk: down by name, up by two points, each step out of a directory that is
there. Where it leads is a place, the names from the root down. Every operation changes the place
that its path leads to and leaves everything beside it alone.
-/

namespace VehicleLink

inductive FileError where
  | notFound
  | notADirectory
  | isADirectory
  | nameTooLong
  | invalidName
  deriving DecidableEq

def FileError.message : FileError → String
  | .notFound => "no such file or directory"
  | .notADirectory => "not a directory"
  | .isADirectory => "is a directory"
  | .nameTooLong => "file name too long"
  | .invalidName => "file name contains a null character"

/-- A way through a tree. -/
structure Path where
  /-- The steps from the root: a name leads down, two points lead up. -/
  steps : List String := []
  /-- Only a directory may be at its end. -/
  directory : Bool := false
  /-- It names nothing, not even the root. -/
  blank : Bool := false
  deriving DecidableEq

namespace Path

/-- Whether a piece of a path's text is no step. -/
def isIdle (piece : String) : Bool := piece = "" || piece = "."

/-- The step that leads up. -/
def up : String := ".."

/-- A text with slashes joined to a directory. A slash at its front leads to the root; a slash or a
point as the last piece asks for a directory, and so does an empty text, which is that directory. -/
def within (base : Path) (s : String) : Path :=
  let pieces := s.splitOn "/"
  let steps := pieces.filter fun piece => !isIdle piece
  { steps := if s.startsWith "/" then steps else base.steps ++ steps
    directory := pieces.getLast?.all isIdle }

/-- The path that an empty text names. -/
def nowhere : Path := { blank := true }

/-- The path that a text names to a program that works in a directory. An empty text names nothing,
and not that directory. -/
def seenFrom (base : Path) (s : String) : Path := if s = "" then nowhere else within base s

def ofString (s : String) : Path := seenFrom {} s

/-- The text of a path without the pieces at its two ends that are no steps. -/
def tidy (s : String) : String :=
  let pieces := (s.splitOn "/").dropWhile isIdle
  "/".intercalate (pieces.reverse.dropWhile isIdle).reverse

/-- A path without its last step. -/
def parent (p : Path) : Path := { steps := p.steps.dropLast, directory := true }

/-- A name without what stands behind its last point; a point at the front belongs to it. -/
def stem (name : List Char) : List Char :=
  match name.reverse.dropWhile (· ≠ '.') with
  | [] => name
  | [_] => name
  | _ :: rest => rest.reverse

/-- The name that a path ends in, unless it ends with a step up or has none. -/
def name? (p : Path) : Option String :=
  match p.steps.getLast? with
  | some name => if name = up then none else some name
  | none => none

/-- The sibling with another ending in place of the path's own; the path itself if it ends in no
name. -/
def withExtension (extension : String) (p : Path) : Path :=
  match p.name? with
  | none => p
  | some name =>
    { steps :=
        p.steps.dropLast ++ [String.ofList (stem name.toList ++ '.' :: extension.toList)] }

def size (p : Path) : Nat := p.steps.foldl (fun n name => n + 1 + name.utf8ByteSize) 0

def sizeLimit : Nat := 4095

/-- What is wrong with a path in any tree. -/
def defect? (p : Path) : Option FileError :=
  if p.blank then some .notFound
  else if p.steps.any fun name => name.toList.contains (Char.ofNat 0) then some .invalidName
  else if sizeLimit < p.size then some .nameTooLong
  else none

theorem blank_of_defect {p : Path} (h : p.defect? = none) : p.blank = false := by
  cases hp : p.blank with
  | false => rfl
  | true => simp [defect?, hp] at h

end Path

/-- A place in a tree: the names from the root down. -/
abbrev Place := List String

/-- What is at a place. -/
inductive Node where
  | file (bytes : List UInt8)
  | directory (entries : List (String × Node))

/-- A tree of files: what is in its root, by names. -/
abbrev FileTree := Named Node

namespace FileTree

/-! ## Looking -/

/-- What is at a place. -/
def node? : Place → FileTree → Option Node
  | [], t => some (.directory t)
  | name :: rest, t =>
    match Named.get? name t with
    | some (.directory inner) => node? rest inner
    | some (.file bytes) => if rest = [] then some (.file bytes) else none
    | none => none

def nameLimit : Nat := 255

/-- Where a step out of a directory leads; nothing is above the root. -/
def enter (here : Place) (step : String) : Except FileError Place :=
  if step = Path.up then .ok here.dropLast
  else if nameLimit < step.utf8ByteSize then .error .nameTooLong
  else .ok (here ++ [step])

/-- Where steps lead, each of them out of a directory that is there. -/
def follow (t : FileTree) : Place → List String → Except FileError Place
  | here, [] => .ok here
  | here, step :: rest =>
    match t.node? here with
    | some (.directory _) =>
      match enter here step with
      | .ok next => follow t next rest
      | .error e => .error e
    | some (.file _) => .error .notADirectory
    | none => .error .notFound

/-- Where a path leads. Nothing has to be there, but its last step is out of a directory. -/
def place (t : FileTree) (p : Path) : Except FileError Place :=
  match p.defect? with
  | some e => .error e
  | none => t.follow [] p.steps

/-- What is at the end of a path. -/
def look (p : Path) (t : FileTree) : Except FileError Node :=
  match t.place p with
  | .error e => .error e
  | .ok here =>
    match t.node? here with
    | some (.file bytes) => if p.directory then .error .notADirectory else .ok (.file bytes)
    | some (.directory entries) => .ok (.directory entries)
    | none => .error .notFound

def contains (t : FileTree) (p : Path) : Bool := (t.look p).isOk

def isFile (t : FileTree) (p : Path) : Bool :=
  match t.look p with
  | .ok (.file _) => true
  | _ => false

def read (p : Path) (t : FileTree) : Except FileError (List UInt8) :=
  match t.look p with
  | .ok (.file bytes) => .ok bytes
  | .ok (.directory _) => .error .isADirectory
  | .error e => .error e

mutual

/-- The texts of a place and of those below it, directories with a slash behind them. -/
def textsAt (here : Place) : Node → List String
  | .file _ => ["/".intercalate here]
  | .directory entries => ("/".intercalate here ++ "/") :: textsBelow here entries

/-- The texts of the entries of a directory. -/
def textsBelow (here : Place) : List (String × Node) → List String
  | [] => []
  | (name, n) :: rest => textsAt (here ++ [name]) n ++ textsBelow here rest

end

/-- Everything in the tree, directories with a slash behind them, in order. -/
def listing (t : FileTree) : List String := (textsBelow [] t).mergeSort (· ≤ ·)

/-! ## Changing -/

/-- The directory in which a name stands for something, or for nothing. -/
def assign (name : String) (n : Option Node) (t : FileTree) : FileTree :=
  match n with
  | some n => Named.insert name n t
  | none => Named.erase name t

theorem get?_assign (name other : String) (n : Option Node) (t : FileTree) :
    Named.get? other (t.assign name n) = if other = name then n else Named.get? other t := by
  cases n with
  | none => exact Named.get?_erase name other t
  | some n => exact Named.get?_insert name other n t

/-- Changes what is at a place in a directory that is there; `f` says how, or why it cannot be. The
root is not changed in this way. -/
def alter (f : Option Node → Except FileError (Option Node)) :
    Place → FileTree → Except FileError FileTree
  | [], _ => .error .isADirectory
  | name :: rest, t =>
    if rest = [] then (f (Named.get? name t)).map (assign name · t)
    else
      match Named.get? name t with
      | some (.directory inner) =>
        (alter f rest inner).map fun inner => Named.insert name (.directory inner) t
      | some (.file _) => .error .notADirectory
      | none => .error .notFound

def written (bytes : List UInt8) : Option Node → Except FileError (Option Node)
  | some (.directory _) => .error .isADirectory
  | _ => .ok (some (.file bytes))

def removed : Option Node → Except FileError (Option Node)
  | some (.directory _) => .error .isADirectory
  | some (.file _) => .ok none
  | none => .error .notFound

def made : Option Node → Except FileError (Option Node)
  | some (.file _) => .error .notADirectory
  | some (.directory entries) => .ok (some (.directory entries))
  | none => .ok (some (.directory []))

/-- Follows steps from a directory and makes those that are missing on the way. -/
def makeAlong : Place → List String → FileTree → Except FileError Unit × FileTree
  | _, [], t => (.ok (), t)
  | here, step :: rest, t =>
    match enter here step with
    | .error e => (.error e, t)
    | .ok [] => makeAlong [] rest t
    | .ok (name :: names) =>
      match t.alter made (name :: names) with
      | .error e => (.error e, t)
      | .ok t => makeAlong (name :: names) rest t

/-- Makes a directory and every missing one on the way to it. A failure leaves those that were made
before it. -/
def makeDirectories (p : Path) (t : FileTree) : Except FileError Unit × FileTree :=
  match p.defect? with
  | some e => (.error e, t)
  | none => t.makeAlong [] p.steps

/-- Writes a file, over one that is there. -/
def write (p : Path) (bytes : List UInt8) (t : FileTree) : Except FileError FileTree :=
  match t.place p with
  | .error e => .error e
  | .ok here => if p.directory then .error .isADirectory else t.alter (written bytes) here

/-- Moves a file in one step, over one that is at its new place. -/
def rename (source target : Path) (t : FileTree) : Except FileError FileTree :=
  match t.read source, t.place source, t.place target with
  | .ok bytes, .ok old, .ok new =>
    if target.directory then .error .notADirectory
    else if old = new then .ok t
    else
      match t.alter (written bytes) new with
      | .ok t => t.alter removed old
      | .error e => .error e
  | .error e, _, _ => .error e
  | _, .error e, _ => .error e
  | _, _, .error e => .error e

end FileTree

end VehicleLink
