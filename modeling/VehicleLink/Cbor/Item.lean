import VehicleLink.Text.Utf8

/-!
# CBOR items

The data items of the concise binary object representation, with what a reader of device files
has to know of their form: whether a string came in one piece. Writing gives definite lengths and
shortest heads; reading takes every well-formed spelling of a length.
-/

namespace VehicleLink.Cbor

/-- A data item. Integers and floating-point numbers are kept apart only as far as it matters:
nothing in a device file is a number. -/
inductive Item where
  | int (negative : Bool) (n : Nat)
  | float
  /-- A byte string; `whole` says that it was not sent in chunks. -/
  | bytes (whole : Bool) (content : List UInt8)
  /-- A text; `whole` says that it was not sent in chunks. -/
  | text (whole : Bool) (content : List Char)
  | array (items : List Item)
  /-- A map, as its keys and values in turn. -/
  | map (entries : List Item)
  /-- An item behind tags, the outermost first. -/
  | tagged (tags : List Nat) (item : Item)
  | bool (b : Bool)
  | null
  | undefined

/-! ## Writing -/

/-- The low `n` bytes of a number, the highest first. -/
def bigEndian : Nat → Nat → List UInt8
  | 0, _ => []
  | n + 1, v => bigEndian n (v / 256) ++ [UInt8.ofNat v]

/-- A head: the major type and its argument in the shortest form. -/
def head (major n : Nat) : List UInt8 :=
  if n < 24 then [UInt8.ofNat (major * 32 + n)]
  else if n < UInt8.size then UInt8.ofNat (major * 32 + 24) :: bigEndian 1 n
  else if n < UInt16.size then UInt8.ofNat (major * 32 + 25) :: bigEndian 2 n
  else if n < UInt32.size then UInt8.ofNat (major * 32 + 26) :: bigEndian 4 n
  else UInt8.ofNat (major * 32 + 27) :: bigEndian 8 n

def writeText (s : List Char) : List UInt8 :=
  let content := Utf8.encode s
  head 3 content.length ++ content

/-- The item that stands for no value. -/
def writeNull : List UInt8 := [0xF6]

/-! ## Reading -/

def ofBigEndian (bytes : List UInt8) : Nat := bytes.foldl (fun n b => n * 256 + b.toNat) 0

/-- What the low five bits of a head stand for. -/
inductive Argument where
  | value (n : Nat)
  /-- No length: chunks or items follow until a stop. -/
  | indefinite

/-- How many bytes behind the first one hold the argument. -/
def argumentBytes? (info : Nat) : Option Nat :=
  if info < 24 then some 0
  else if info = 24 then some 1
  else if info = 25 then some 2
  else if info = 26 then some 4
  else if info = 27 then some 8
  else if info = 31 then some 0
  else none

def take? (n : Nat) (bytes : List UInt8) : Option (List UInt8 × List UInt8) :=
  if n = 0 then some ([], bytes)
  else
    match bytes.drop (n - 1) with
    | [] => none
    | _ :: rest => some (bytes.take n, rest)

/-- A head with its major type, the low bits of its first byte and its argument, and the bytes
behind it. -/
def readHead : List UInt8 → Option (Nat × Nat × Argument × List UInt8)
  | [] => none
  | b :: rest =>
    let major := b.toNat / 32
    let info := b.toNat % 32
    (argumentBytes? info).bind fun n =>
      (take? n rest).map fun (argument, rest) =>
        let argument :=
          if info = 31 then .indefinite
          else if info < 24 then .value info
          else .value (ofBigEndian argument)
        (major, info, argument, rest)

/-- The tags at the front, after others in reverse, and the bytes behind them. At most `fuel` tags
are read. -/
def readTags : Nat → List Nat → List UInt8 → List Nat × List UInt8
  | 0, tags, bytes => (tags.reverse, bytes)
  | fuel + 1, tags, bytes =>
    match readHead bytes with
    | some (6, _, .value n, rest) => readTags fuel (n :: tags) rest
    | _ => (tags.reverse, bytes)

/-- An item with the tags before it. -/
def Item.behind (tags : List Nat) (item : Item) : Item :=
  if tags.isEmpty then item else .tagged tags item

/-- The chunks of a string of one major type up to the stop that closes `depth` openings; a text
chunk has to be readable on its own. At most `fuel` heads are read. -/
def readChunks (major : Nat) : Nat → Nat → List UInt8 → Option (List (List UInt8) × List UInt8)
  | 0, _, _ => none
  | fuel + 1, depth, bytes =>
    match readHead bytes with
    | some (7, 31, _, rest) =>
      if depth ≤ 1 then some ([], rest) else readChunks major fuel (depth - 1) rest
    | some (m, _, .indefinite, rest) =>
      if m = major then readChunks major fuel (depth + 1) rest else none
    | some (m, _, .value n, rest) =>
      if m = major then
        match take? n rest with
        | some (chunk, rest) =>
          (readChunks major fuel depth rest).map fun (chunks, rest) => (chunk :: chunks, rest)
        | none => none
      else none
    | none => none

/-- The text of chunks each of which is UTF-8. -/
def textOfChunks (chunks : List (List UInt8)) : Option (List Char) :=
  (chunks.mapM Utf8.decode?).map List.flatten

/-- The item that a simple value or a number of major type 7 is. -/
def simple? (info : Nat) (argument : Argument) : Option Item :=
  if 25 ≤ info ∧ info ≤ 27 then some .float
  else
    match argument with
    | .value 20 => some (.bool false)
    | .value 21 => some (.bool true)
    | .value 22 => some .null
    | .value 23 => some .undefined
    | _ => none

mutual

/-- One item from the front of the bytes, in which arrays and maps are nested at most `depth`
levels deep. Every call uses one unit of fuel, and a byte accounts for three calls at most: that of
an item, of the items beside it and of their group. -/
def readItem : Nat → Nat → List UInt8 → Option (Item × List UInt8)
  | 0, _, _ => none
  | fuel + 1, depth, bytes =>
    let (tags, bytes) := readTags fuel [] bytes
    let found : Option (Item × List UInt8) :=
      match readHead bytes with
      | some (0, _, .value n, rest) => some (.int false n, rest)
      | some (1, _, .value n, rest) => some (.int true n, rest)
      | some (2, _, .value n, rest) => (take? n rest).map fun (b, rest) => (.bytes true b, rest)
      | some (2, _, .indefinite, rest) =>
        (readChunks 2 fuel 1 rest).map fun (chunks, rest) => (.bytes false chunks.flatten, rest)
      | some (3, _, .value n, rest) =>
        (take? n rest).bind fun (b, rest) => (Utf8.decode? b).map fun s => (.text true s, rest)
      | some (3, _, .indefinite, rest) =>
        (readChunks 3 fuel 1 rest).bind fun (chunks, rest) =>
          (textOfChunks chunks).map fun s => (.text false s, rest)
      | some (7, info, argument, rest) => (simple? info argument).map (·, rest)
      | some (major, _, argument, rest) =>
        match depth with
        | 0 => none
        | depth + 1 =>
          match major, argument with
          | 4, .value n =>
            (readItems fuel depth n rest).map fun (items, rest) => (.array items, rest)
          | 4, .indefinite =>
            (readUntilStop fuel depth 1 rest).map fun (items, rest) => (.array items, rest)
          | 5, .value n =>
            (readItems fuel depth (2 * n) rest).map fun (items, rest) => (.map items, rest)
          | 5, .indefinite =>
            (readUntilStop fuel depth 2 rest).map fun (items, rest) => (.map items, rest)
          | _, _ => none
      | none => none
    found.map fun (item, rest) => (item.behind tags, rest)

/-- So many items from the front of the bytes. -/
def readItems : Nat → Nat → Nat → List UInt8 → Option (List Item × List UInt8)
  | _, _, 0, bytes => some ([], bytes)
  | 0, _, _ + 1, _ => none
  | fuel + 1, depth, n + 1, bytes =>
    (readItem fuel depth bytes).bind fun (item, rest) =>
      (readItems fuel depth n rest).map fun (items, rest) => (item :: items, rest)

/-- Items in groups of `size` up to a stop, which may only stand between groups. -/
def readUntilStop : Nat → Nat → Nat → List UInt8 → Option (List Item × List UInt8)
  | 0, _, _, _ => none
  | fuel + 1, depth, size, bytes =>
    match bytes with
    | 0xFF :: rest => some ([], rest)
    | _ =>
      (readItems fuel depth size bytes).bind fun (group, rest) =>
        (readUntilStop fuel depth size rest).map fun (items, rest) => (group ++ items, rest)

end

/-- The item at the front of the bytes, with arrays and maps at most `depth` levels deep, and the
bytes behind it. -/
def read (depth : Nat) (bytes : List UInt8) : Option (Item × List UInt8) :=
  readItem (3 * bytes.length + 3) depth bytes

/-! ## Form -/

/-- The integer that a byte string of at most 16 bytes right behind the tag of positive or negative
big integers stands for, as a sign and an argument. -/
def bigInteger? (tags : List Nat) (item : Item) : Option (Bool × Nat) :=
  match tags.getLast?, item with
  | some 2, .bytes true content =>
    if content.length ≤ 16 then some (false, ofBigEndian content) else none
  | some 3, .bytes true content =>
    if content.length ≤ 16 then some (true, ofBigEndian content) else none
  | _, _ => none

/-- Negative integers have an argument below this bound. -/
def negativeBound : Nat := 170141183460469231731687303715884105728

mutual

/-- How deep arrays, maps and tags are nested in an item; the tag of a big integer is part of it. -/
def Item.nesting : Item → Nat
  | .array items => nestingOfAll items + 1
  | .map entries => nestingOfAll entries + 1
  | .tagged tags item =>
    tags.length - (if (bigInteger? tags item).isSome then 1 else 0) + item.nesting
  | _ => 0

/-- The deepest nesting in any of the items. -/
def nestingOfAll : List Item → Nat
  | [] => 0
  | item :: rest => max item.nesting (nestingOfAll rest)

end

mutual

/-- Whether no negative integer in an item is out of range. -/
def Item.inRange : Item → Bool
  | .array items => allInRange items
  | .map entries => allInRange entries
  | .tagged tags item =>
    match bigInteger? tags item with
    | some (true, n) => n < negativeBound
    | _ => item.inRange
  | _ => true

def allInRange : List Item → Bool
  | [] => true
  | item :: rest => item.inRange && allInRange rest

end

/-- The item behind any tags. -/
def Item.untagged : Item → Item
  | .tagged _ item => item.untagged
  | item => item

end VehicleLink.Cbor
