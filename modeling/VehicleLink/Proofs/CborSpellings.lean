import VehicleLink.Proofs.CborItems

/-!
# Every spelling of an item is read

An item can be written in many ways: heads need not be the shortest, strings may come in chunks,
arrays and maps may be open until a stop, and tags may stand in front of anything. `Written` is
this grammar, without regard to the reader, but for simple values that mean nothing. What it
derives from bytes the reader finds in them, unless arrays and maps are nested deeper than it goes
(`Written.read`).

The induction is on the grammar. It cuts the bytes into one part for each item (`ReadsAll`), because
the reader counts items one by one in a group of announced length and takes them in ones or twos in
an open one.
-/

namespace VehicleLink.Cbor

/-! ## The grammar -/

/-- A head of a major type with an argument, in any of its forms. -/
def Headed (bytes : List UInt8) (major n : Nat) : Prop :=
  ∃ info argument, IsHead bytes major n info argument

/-- Tags one behind the other. -/
inductive Tags : List UInt8 → List Nat → Prop
  | nil : Tags [] []
  | cons {head rest : List UInt8} {tag : Nat} {tags : List Nat} :
    Headed head 6 tag → Tags rest tags → Tags (head ++ rest) (tag :: tags)

/-- Strings of one major type behind each other, each with its length. -/
inductive Chunks (major : Nat) : List UInt8 → List (List UInt8) → Prop
  | nil : Chunks major [] []
  | cons {head chunk rest : List UInt8} {chunks : List (List UInt8)} :
    Headed head major chunk.length → Chunks major rest chunks →
      Chunks major (head ++ (chunk ++ rest)) (chunk :: chunks)

/-- An item with no others in it. -/
inductive Atom : List UInt8 → Item → Prop
  | unsigned {head : List UInt8} {n : Nat} : Headed head 0 n → Atom head (.int false n)
  | negative {head : List UInt8} {n : Nat} : Headed head 1 n → Atom head (.int true n)
  | bytes {head content : List UInt8} :
    Headed head 2 content.length → Atom (head ++ content) (.bytes true content)
  | byteChunks {bytes : List UInt8} {chunks : List (List UInt8)} :
    Chunks 2 bytes chunks → Atom (0x5F :: (bytes ++ [0xFF])) (.bytes false chunks.flatten)
  | text {head : List UInt8} {s : List Char} :
    Headed head 3 (Utf8.encode s).length → Atom (head ++ Utf8.encode s) (.text true s)
  | textChunks {bytes : List UInt8} {chunks : List (List Char)} :
    Chunks 3 bytes (chunks.map Utf8.encode) →
      Atom (0x7F :: (bytes ++ [0xFF])) (.text false chunks.flatten)
  | false : Atom [0xF4] (.bool false)
  | true : Atom [0xF5] (.bool true)
  | null : Atom [0xF6] .null
  | undefined : Atom [0xF7] .undefined
  | half {b0 b1 : UInt8} : Atom [0xF9, b0, b1] .float
  | single {b0 b1 b2 b3 : UInt8} : Atom [0xFA, b0, b1, b2, b3] .float
  | double {b0 b1 b2 b3 b4 b5 b6 b7 : UInt8} :
    Atom [0xFB, b0, b1, b2, b3, b4, b5, b6, b7] .float

/-- What stands before and behind the items of an array or a map, which has an even number of
them. -/
inductive Frame (items : List Item) : Item → List UInt8 → List UInt8 → Prop
  | array {opening : List UInt8} :
    Headed opening 4 items.length → Frame items (.array items) opening []
  | openArray : Frame items (.array items) [0x9F] [0xFF]
  | map {opening : List UInt8} (pairs : Nat) :
    items.length = 2 * pairs → Headed opening 5 pairs → Frame items (.map items) opening []
  | openMap (pairs : Nat) :
    items.length = 2 * pairs → Frame items (.map items) [0xBF] [0xFF]

/-- Bytes are items one behind the other, each behind its tags. -/
inductive Written : List UInt8 → List Item → Prop
  | nil : Written [] []
  | atom {front bytes rest : List UInt8} {tags : List Nat} {item : Item} {items : List Item} :
    Tags front tags → Atom bytes item → Written rest items →
      Written (front ++ bytes ++ rest) (item.behind tags :: items)
  | group {front opening bytes closing rest : List UInt8} {tags : List Nat} {item : Item}
      {content items : List Item} :
    Tags front tags → Frame content item opening closing → Written bytes content →
      Written rest items →
      Written (front ++ (opening ++ bytes ++ closing) ++ rest) (item.behind tags :: items)

/-! ## How deep arrays and maps are nested -/

mutual

/-- How many arrays and maps are around the innermost item. -/
def Item.levels : Item → Nat
  | .array items => levelsOfAll items + 1
  | .map entries => levelsOfAll entries + 1
  | .tagged _ item => item.levels
  | _ => 0

/-- The most levels of any of the items. -/
def levelsOfAll : List Item → Nat
  | [] => 0
  | item :: rest => max item.levels (levelsOfAll rest)

end

@[simp] theorem levels_behind (tags : List Nat) (item : Item) :
    (item.behind tags).levels = item.levels := by
  rw [Item.behind]
  split
  · rfl
  · rw [Item.levels]

@[simp] theorem untagged_behind (tags : List Nat) (item : Item) :
    (item.behind tags).untagged = item.untagged := by
  rw [Item.behind]
  split
  · rfl
  · rw [Item.untagged]

theorem levels_untagged : ∀ item : Item, item.untagged.levels = item.levels
  | .tagged _ item => by
    rw [Item.untagged, Item.levels]
    exact levels_untagged item
  | .int .. | .float | .bytes .. | .text .. | .array _ | .map _ | .bool _ | .null
  | .undefined => rfl

theorem levelsOfAll_append (items others : List Item) :
    levelsOfAll (items ++ others) = max (levelsOfAll items) (levelsOfAll others) := by
  induction items with
  | nil => simp [levelsOfAll]
  | cons item items ih => simp [levelsOfAll, ih, Nat.max_assoc]

theorem levelsOfAll_le_iff {items : List Item} {n : Nat} :
    levelsOfAll items ≤ n ↔ ∀ item ∈ items, item.levels ≤ n := by
  induction items with
  | nil => simp [levelsOfAll]
  | cons item items ih => rw [levelsOfAll, Nat.max_le, ih, List.forall_mem_cons]

mutual

/-- Levels are one kind of nesting. -/
theorem levels_le_nesting : ∀ item : Item, item.levels ≤ item.nesting
  | .array items => by
    have := levelsOfAll_le_nesting items
    simp only [Item.levels, Item.nesting]
    omega
  | .map entries => by
    have := levelsOfAll_le_nesting entries
    simp only [Item.levels, Item.nesting]
    omega
  | .tagged _ item => by
    have := levels_le_nesting item
    simp only [Item.levels, Item.nesting]
    omega
  | .int .. | .float | .bytes .. | .text .. | .bool _ | .null | .undefined => by
    simp [Item.levels]

theorem levelsOfAll_le_nesting : ∀ items : List Item, levelsOfAll items ≤ nestingOfAll items
  | [] => by simp [levelsOfAll]
  | item :: items => by
    have := levels_le_nesting item
    have := levelsOfAll_le_nesting items
    simp only [levelsOfAll, nestingOfAll]
    omega

end

/-! ## Heads, tags and chunks -/

theorem Headed.read {bytes : List UInt8} {major n : Nat} (h : Headed bytes major n)
    (hm : major < 8) (rest : List UInt8) :
    ∃ info, readHead (bytes ++ rest) = some (major, info, .value n, rest) := by
  obtain ⟨info, argument, h⟩ := h
  exact ⟨info, h.read hm rest⟩

theorem Headed.length_pos {bytes : List UInt8} {major n : Nat} (h : Headed bytes major n) :
    0 < bytes.length := by
  obtain ⟨info, argument, rfl, -⟩ := h
  exact Nat.succ_pos _

/-- The first item of the bytes has a head and no tag. -/
def Untagged (bytes : List UInt8) : Prop := ∃ head, readHead bytes = some head ∧ head.1 ≠ 6

theorem Untagged.readTags {bytes : List UInt8} (h : Untagged bytes) (fuel : Nat)
    (tags : List Nat) : readTags fuel tags bytes = (tags.reverse, bytes) := by
  obtain ⟨head, hhead, hne⟩ := h
  refine readTags_plain fuel fun head' h' => ?_
  rw [hhead] at h'
  cases h'
  exact hne

/-- All tags are read that stand before an item. -/
theorem Tags.read {front bytes : List UInt8} {tags : List Nat} (h : Tags front tags)
    (hu : Untagged bytes) {fuel : Nat} (hf : front.length ≤ fuel) (before : List Nat) :
    readTags fuel before (front ++ bytes) = (before.reverse ++ tags, bytes) := by
  induction h generalizing fuel before with
  | nil => rw [List.nil_append, hu.readTags, List.append_nil]
  | cons hhead _ ih =>
    have hpos := hhead.length_pos
    rw [List.length_append] at hf
    obtain ⟨fuel, rfl⟩ : ∃ f, fuel = f + 1 := ⟨fuel - 1, by omega⟩
    obtain ⟨info, hread⟩ := hhead.read (by decide) _
    rw [List.append_assoc, readTags, hread]
    refine (ih (show _ ≤ fuel by omega) _).trans ?_
    rw [List.reverse_cons, List.append_assoc, List.singleton_append]

/-- Chunks are read up to the stop that closes them. -/
theorem Chunks.read {major : Nat} {bytes : List UInt8} {chunks : List (List UInt8)}
    (h : Chunks major bytes chunks) (hm : major < 7) {fuel : Nat} (hf : bytes.length < fuel)
    (rest : List UInt8) :
    readChunks major fuel 1 (bytes ++ 0xFF :: rest) = some (chunks, rest) := by
  induction h generalizing fuel with
  | nil =>
    obtain ⟨fuel, rfl⟩ : ∃ f, fuel = f + 1 := ⟨fuel - 1, by omega⟩
    rfl
  | cons hhead _ ih =>
    have hpos := hhead.length_pos
    simp only [List.length_append] at hf
    obtain ⟨fuel, rfl⟩ : ∃ f, fuel = f + 1 := ⟨fuel - 1, by omega⟩
    obtain ⟨info, hread⟩ := hhead.read (by omega) _
    have h7 : major ≠ 7 := by omega
    rw [List.append_assoc, List.append_assoc, readChunks, hread]
    simp [take_append, ih (show _ < fuel by omega), h7]

theorem textOfChunks_encode (chunks : List (List Char)) :
    textOfChunks (chunks.map Utf8.encode) = some chunks.flatten := by
  have h : (chunks.map Utf8.encode).mapM Utf8.decode? = some chunks := by
    induction chunks with
    | nil => rfl
    | cons chunk chunks ih => simp [List.mapM_cons, Utf8.decode_encode, ih]
  rw [textOfChunks, h, Option.map_some]

/-! ## One item -/

/-- What the reader makes of items that are not nested too deep, and of others. -/
def found {α : Type} (depth levels : Nat) (items : α) (rest : List UInt8) :
    Option (α × List UInt8) :=
  if levels ≤ depth then some (items, rest) else none

/-- Bytes are read as an item, whatever is behind them. -/
structure Reads (bytes : List UInt8) (item : Item) : Prop where
  ne_nil : bytes ≠ []
  read : ∀ (fuel depth : Nat) (rest : List UInt8), 3 * bytes.length ≤ fuel →
    readItem fuel depth (bytes ++ rest) = found depth item.levels item rest

/-- Tags are kept with the item behind them. -/
theorem readItem_tags {front bytes : List UInt8} {tags : List Nat} {fuel : Nat} (depth : Nat)
    (h : Tags front tags) (hu : Untagged bytes) (hf : front.length ≤ fuel) :
    readItem (fuel + 1) depth (front ++ bytes) =
      (readItem (fuel + 1) depth bytes).map fun (item, rest) => (item.behind tags, rest) := by
  simp only [readItem, h.read hu hf, hu.readTags, List.reverse_nil, List.nil_append, behind_nil,
    Option.map_map]
  rfl

theorem Reads.behind {front bytes : List UInt8} {tags : List Nat} {item : Item}
    (ht : Tags front tags) (hu : ∀ rest, Untagged (bytes ++ rest)) (h : Reads bytes item) :
    Reads (front ++ bytes) (item.behind tags) where
  ne_nil := by simp [h.ne_nil]
  read fuel depth rest hf := by
    have hpos := List.length_pos_iff.2 h.ne_nil
    rw [List.length_append] at hf
    obtain ⟨fuel, rfl⟩ : ∃ f, fuel = f + 1 := ⟨fuel - 1, by omega⟩
    rw [List.append_assoc, readItem_tags depth ht (hu rest) (by omega),
      h.read (fuel + 1) depth rest (by omega), levels_behind, found, found]
    split <;> rfl

/-! ## Items without others in them -/

theorem Atom.levels {bytes : List UInt8} {item : Item} (h : Atom bytes item) :
    item.levels = 0 := by
  cases h <;> rfl

theorem Atom.untagged {bytes : List UInt8} {item : Item} (h : Atom bytes item)
    (rest : List UInt8) : Untagged (bytes ++ rest) := by
  have hheaded : ∀ {head major n}, Headed head major n → major < 6 → ∀ rest,
      Untagged (head ++ rest) := fun hh hm rest => by
    obtain ⟨info, hread⟩ := hh.read (by omega) rest
    exact ⟨_, hread, by dsimp only; omega⟩
  cases h with
  | unsigned hh | negative hh => exact hheaded hh (by decide) rest
  | bytes hh | text hh =>
    rw [List.append_assoc]
    exact hheaded hh (by decide) _
  | _ => exact ⟨_, rfl, by dsimp; decide⟩

/-- An atom is read with any fuel for which its chunks are not too many. -/
theorem Atom.read {bytes : List UInt8} {item : Item} (h : Atom bytes item) {fuel : Nat}
    (depth : Nat) (hf : bytes.length ≤ fuel + 1) (rest : List UInt8) :
    readItem (fuel + 1) depth (bytes ++ rest) = some (item, rest) := by
  have ht := (h.untagged rest).readTags fuel []
  cases h with
  | unsigned hh =>
    obtain ⟨info, hread⟩ := hh.read (by decide) rest
    simp [readItem, ht, hread]
  | negative hh =>
    obtain ⟨info, hread⟩ := hh.read (by decide) rest
    simp [readItem, ht, hread]
  | @bytes head content hh =>
    obtain ⟨info, hread⟩ := hh.read (by decide) (content ++ rest)
    rw [List.append_assoc] at ht ⊢
    simp [readItem, ht, hread, take_append]
  | @text head s hh =>
    obtain ⟨info, hread⟩ := hh.read (by decide) (Utf8.encode s ++ rest)
    rw [List.append_assoc, readItem_text fuel depth hread, take_append]
    simp only [Option.bind_some, Utf8.decode_encode, Option.map_some]
  | @byteChunks bytes chunks hc =>
    simp only [List.length_cons, List.length_append, List.length_nil] at hf
    have hread : readHead (0x5F :: (bytes ++ [0xFF]) ++ rest) =
        some (2, 31, .indefinite, bytes ++ 0xFF :: rest) := by
      simp [readHead, argumentBytes?, take?]
    have hchunks := hc.read (by decide) (show bytes.length < fuel by omega) rest
    simp only [readItem, ht, hread, hchunks]
    rfl
  | @textChunks bytes chunks hc =>
    simp only [List.length_cons, List.length_append, List.length_nil] at hf
    have hread : readHead (0x7F :: (bytes ++ [0xFF]) ++ rest) =
        some (3, 31, .indefinite, bytes ++ 0xFF :: rest) := by
      simp [readHead, argumentBytes?, take?]
    have hchunks := hc.read (by decide) (show bytes.length < fuel by omega) rest
    simp only [readItem, ht, hread, hchunks, Option.bind_some, textOfChunks_encode]
    rfl
  | _ =>
    simp only [readItem, ht]
    rfl

theorem Atom.ne_nil {bytes : List UInt8} {item : Item} (h : Atom bytes item) : bytes ≠ [] := by
  rintro rfl
  obtain ⟨head, hhead, -⟩ := h.untagged []
  cases hhead

theorem Atom.reads {bytes : List UInt8} {item : Item} (h : Atom bytes item) :
    Reads bytes item where
  ne_nil := h.ne_nil
  read fuel depth rest hf := by
    have hpos := List.length_pos_iff.2 h.ne_nil
    obtain ⟨fuel, rfl⟩ : ∃ f, fuel = f + 1 := ⟨fuel - 1, by omega⟩
    rw [h.read depth (by omega) rest, h.levels, found, if_pos (Nat.zero_le depth)]

/-! ## Items in a row -/

/-- Items are found in a row if neither the first ones nor those behind them are nested too
deep. -/
theorem found_bind {α β γ : Type} {depth m n : Nat} {a : α} {b : β} {bytes rest : List UInt8}
    {next : List UInt8 → Option (β × List UInt8)} (h : next bytes = found depth n b rest)
    (join : α → β → γ) :
    ((found depth m a bytes).bind fun (a, bytes) =>
      (next bytes).map fun (b, rest) => (join a b, rest)) =
      found depth (max m n) (join a b) rest := by
  simp only [found, Nat.max_le] at h ⊢
  by_cases hm : m ≤ depth
  · simp only [hm, if_true, true_and, Option.bind_some, h]
    split <;> rfl
  · simp only [hm, if_false, false_and, Option.bind_none]

/-- No item begins with a stop. -/
theorem Reads.first_ne_stop {bytes rest : List UInt8} {item : Item} (h : Reads bytes item) :
    bytes ≠ 0xFF :: rest := by
  rintro rfl
  -- A stop is headed like a simple value, of which there is none with its bits.
  have hread := h.read (3 * rest.length + 2 + 1) item.levels [] (by simp; omega)
  have hu : Untagged (0xFF :: rest ++ []) := ⟨_, rfl, by dsimp only; decide⟩
  have ht := hu.readTags (3 * rest.length + 2) []
  rw [found, if_pos (Nat.le_refl _)] at hread
  simp only [readItem, ht] at hread
  cases hread

/-- Bytes are read as items, one after the other. -/
inductive ReadsAll : List UInt8 → List Item → Prop
  | nil : ReadsAll [] []
  | cons {bytes rest : List UInt8} {item : Item} {items : List Item} :
    Reads bytes item → ReadsAll rest items → ReadsAll (bytes ++ rest) (item :: items)

section
variable {bytes : List UInt8} {items : List Item}

/-- The bytes of some first items, and those of the others. -/
theorem ReadsAll.split (h : ReadsAll bytes items) (n : Nat) :
    ∃ first rest, bytes = first ++ rest ∧ ReadsAll first (items.take n) ∧
      ReadsAll rest (items.drop n) := by
  induction h generalizing n with
  | nil => exact ⟨[], [], rfl, by simpa using .nil, by simpa using .nil⟩
  | @cons bytes rest item items h hs ih =>
    cases n with
    | zero => exact ⟨[], bytes ++ rest, rfl, .nil, .cons h hs⟩
    | succ n =>
      obtain ⟨first, last, rfl, hfirst, hlast⟩ := ih n
      exact ⟨bytes ++ first, last, (List.append_assoc ..).symm, .cons h hfirst, hlast⟩

theorem ReadsAll.eq_nil (h : ReadsAll bytes []) : bytes = [] := by
  cases h
  rfl

theorem ReadsAll.length_le (h : ReadsAll bytes items) : items.length ≤ bytes.length := by
  induction h with
  | nil => exact Nat.le_refl 0
  | cons h _ ih =>
    have hpos := List.length_pos_iff.2 h.ne_nil
    rw [List.length_append, List.length_cons]
    omega

/-- So many items are read. -/
theorem ReadsAll.readItems (h : ReadsAll bytes items) {fuel : Nat} (depth : Nat)
    (hf : 3 * bytes.length < fuel) (rest : List UInt8) :
    readItems fuel depth items.length (bytes ++ rest) =
      found depth (levelsOfAll items) items rest := by
  induction h generalizing fuel with
  | nil => simp [Cbor.readItems, found, levelsOfAll]
  | @cons bytes others item items h _ ih =>
    have hpos := List.length_pos_iff.2 h.ne_nil
    rw [List.length_append] at hf
    obtain ⟨fuel, rfl⟩ : ∃ f, fuel = f + 1 := ⟨fuel - 1, by omega⟩
    rw [List.length_cons, Cbor.readItems, List.append_assoc, h.read fuel depth _ (by omega),
      levelsOfAll]
    exact found_bind (ih (show _ < fuel by omega)) List.cons

/-- The stop is not taken for an item. -/
theorem readUntilStop_more {fuel : Nat} (depth size : Nat) (hne : ∀ rest, bytes ≠ 0xFF :: rest) :
    readUntilStop (fuel + 1) depth size bytes =
      (Cbor.readItems fuel depth size bytes).bind fun (group, rest) =>
        (readUntilStop fuel depth size rest).map fun (items, rest) => (group ++ items, rest) := by
  rw [readUntilStop]
  exact hne

theorem ReadsAll.first_ne_stop (h : ReadsAll bytes items) (hne : items ≠ [])
    (behind rest : List UInt8) : bytes ++ behind ≠ 0xFF :: rest := by
  cases h with
  | nil => exact absurd rfl hne
  | @cons bytes others item items h _ =>
    intro heq
    obtain ⟨b, bytes, rfl⟩ := List.exists_cons_of_ne_nil h.ne_nil
    obtain ⟨rfl, -⟩ := List.cons.inj heq
    exact h.first_ne_stop rfl

/-- Items are read in groups up to the stop. -/
theorem ReadsAll.readUntilStop {size groups : Nat} (hsize : 0 < size) (h : ReadsAll bytes items)
    (hl : items.length = size * groups) {fuel : Nat} (depth : Nat)
    (hf : 3 * bytes.length + 1 < fuel) (rest : List UInt8) :
    readUntilStop fuel depth size (bytes ++ 0xFF :: rest) =
      found depth (levelsOfAll items) items rest := by
  induction groups generalizing bytes items fuel with
  | zero =>
    obtain rfl := List.length_eq_zero_iff.1 hl
    obtain rfl := h.eq_nil
    obtain ⟨fuel, rfl⟩ : ∃ f, fuel = f + 1 := ⟨fuel - 1, by omega⟩
    simp [Cbor.readUntilStop, found, levelsOfAll]
  | succ groups ih =>
    rw [Nat.mul_succ] at hl
    have hne : items ≠ [] := List.length_pos_iff.1 (by omega)
    have hstop := h.first_ne_stop hne
    obtain ⟨first, last, rfl, hfirst, hlast⟩ := h.split size
    have htake : (items.take size).length = size := by
      rw [List.length_take]
      omega
    -- The bytes of a group pay for the call that reads the next one.
    have hpos := hfirst.length_le
    rw [List.length_append] at hf
    obtain ⟨fuel, rfl⟩ : ∃ f, fuel = f + 1 := ⟨fuel - 1, by omega⟩
    have hgroup := hfirst.readItems depth (show _ < fuel by omega) (last ++ 0xFF :: rest)
    have hothers := ih hlast (by rw [List.length_drop]; omega) (show _ < fuel by omega)
    rw [htake] at hgroup
    rw [readUntilStop_more depth size (hstop _), List.append_assoc, hgroup,
      found_bind hothers (· ++ ·), ← levelsOfAll_append, List.take_append_drop]

end

/-! ## Arrays and maps -/

theorem found_map {α β : Type} {depth levels : Nat} {a : α} {rest : List UInt8} (wrap : α → β) :
    ((found depth levels a rest).map fun (a, rest) => (wrap a, rest)) =
      found depth levels (wrap a) rest := by
  simp only [found]
  split <;> rfl

theorem readItem_openArray {bytes rest : List UInt8} {info : Nat} (fuel depth : Nat)
    (h : readHead bytes = some (4, info, .indefinite, rest)) :
    readItem (fuel + 1) (depth + 1) bytes =
      (readUntilStop fuel depth 1 rest).map fun (items, rest) => (.array items, rest) := by
  have hu : Untagged bytes := ⟨_, h, by dsimp only; decide⟩
  simp only [readItem, hu.readTags, h, List.reverse_nil, behind_nil]
  exact congrFun Option.map_id _

theorem readItem_openMap {bytes rest : List UInt8} {info : Nat} (fuel depth : Nat)
    (h : readHead bytes = some (5, info, .indefinite, rest)) :
    readItem (fuel + 1) (depth + 1) bytes =
      (readUntilStop fuel depth 2 rest).map fun (items, rest) => (.map items, rest) := by
  have hu : Untagged bytes := ⟨_, h, by dsimp only; decide⟩
  simp only [readItem, hu.readTags, h, List.reverse_nil, behind_nil]
  exact congrFun Option.map_id _

/-- Where no level is left, there is no array and no map. -/
theorem readItem_bottom {bytes rest : List UInt8} {major info : Nat} {argument : Argument}
    (fuel : Nat) (h : readHead bytes = some (major, info, argument, rest))
    (hm : major = 4 ∨ major = 5) : readItem (fuel + 1) 0 bytes = none := by
  have hu : Untagged bytes := ⟨_, h, by dsimp only; omega⟩
  rcases hm with rfl | rfl
  · simp [readItem, hu.readTags, h]
  · simp [readItem, hu.readTags, h]

section
variable {items : List Item} {item : Item} {opening bytes closing : List UInt8}

theorem Frame.levels (h : Frame items item opening closing) :
    item.levels = levelsOfAll items + 1 := by
  cases h <;> rfl

theorem Frame.head (h : Frame items item opening closing) (rest : List UInt8) :
    ∃ major info argument, readHead (opening ++ rest) = some (major, info, argument, rest) ∧
      (major = 4 ∨ major = 5) := by
  cases h with
  | array hh =>
    obtain ⟨info, hread⟩ := hh.read (by decide) rest
    exact ⟨_, _, _, hread, .inl rfl⟩
  | map _ _ hh =>
    obtain ⟨info, hread⟩ := hh.read (by decide) rest
    exact ⟨_, _, _, hread, .inr rfl⟩
  | openArray => exact ⟨_, _, _, rfl, .inl rfl⟩
  | openMap => exact ⟨_, _, _, rfl, .inr rfl⟩

theorem Frame.untagged (h : Frame items item opening closing) (rest : List UInt8) :
    Untagged (opening ++ rest) := by
  obtain ⟨major, info, argument, hread, hm⟩ := h.head rest
  exact ⟨_, hread, by dsimp only; omega⟩

theorem Frame.length_pos (h : Frame items item opening closing) : 0 < opening.length := by
  cases h with
  | array hh | map _ _ hh => exact hh.length_pos
  | openArray | openMap => exact Nat.one_pos

/-- The items in an array or a map are read one level further down. -/
theorem Frame.readItem_succ (h : Frame items item opening closing) (hs : ReadsAll bytes items)
    {fuel : Nat} (depth : Nat)
    (hf : 3 * (opening.length + bytes.length + closing.length) ≤ fuel + 1) (rest : List UInt8) :
    readItem (fuel + 1) (depth + 1) (opening ++ (bytes ++ (closing ++ rest))) =
      found depth (levelsOfAll items) item rest := by
  have hpos := h.length_pos
  have hitems := hs.readItems depth (show _ < fuel by omega) rest
  cases h with
  | array hh =>
    obtain ⟨info, hread⟩ := hh.read (by decide) (bytes ++ ([] ++ rest))
    rw [readItem_array fuel depth hread, List.nil_append, hitems, found_map]
  | map _ hl hh =>
    obtain ⟨info, hread⟩ := hh.read (by decide) (bytes ++ ([] ++ rest))
    rw [readItem_map fuel depth hread, List.nil_append, ← hl, hitems, found_map]
  | openArray =>
    simp only [List.length_singleton] at hf
    have hopen := hs.readUntilStop Nat.one_pos (Nat.one_mul _).symm depth
      (show _ < fuel by omega) rest
    rw [readItem_openArray fuel depth rfl]
    exact (congrArg _ hopen).trans (found_map _)
  | openMap _ hl =>
    simp only [List.length_singleton] at hf
    have hopen := hs.readUntilStop Nat.two_pos hl depth (show _ < fuel by omega) rest
    rw [readItem_openMap fuel depth rfl]
    exact (congrArg _ hopen).trans (found_map _)

theorem Frame.reads (h : Frame items item opening closing) (hs : ReadsAll bytes items) :
    Reads (opening ++ bytes ++ closing) item where
  ne_nil := by
    have hne := List.length_pos_iff.1 h.length_pos
    simp [hne]
  read fuel depth rest hf := by
    have hpos := h.length_pos
    simp only [List.length_append] at hf
    obtain ⟨fuel, rfl⟩ : ∃ f, fuel = f + 1 := ⟨fuel - 1, by omega⟩
    rw [List.append_assoc, List.append_assoc, found, h.levels]
    -- At the bottom nothing is read behind the opening, and one level goes to the group itself.
    cases depth with
    | zero =>
      obtain ⟨major, info, argument, hread, hm⟩ := h.head (bytes ++ (closing ++ rest))
      rw [readItem_bottom fuel hread hm, if_neg (Nat.not_succ_le_zero _)]
    | succ depth =>
      rw [h.readItem_succ hs depth hf, found]
      simp only [Nat.add_le_add_iff_right]

end

/-! ## What the grammar derives -/

/-- A written text is one of the spellings. -/
theorem Written.cons_text {s : List Char} (hs : (Utf8.encode s).length < UInt64.size)
    {rest : List UInt8} {items : List Item} (h : Written rest items) :
    Written (writeText s ++ rest) (.text true s :: items) :=
  .atom .nil (.text (head_isHead hs 3)) h

/-- An array or a map without tags. -/
theorem Written.cons_group {content items : List Item} {item : Item}
    {opening bytes closing rest : List UInt8} (hframe : Frame content item opening closing)
    (hcontent : Written bytes content) (h : Written rest items) :
    Written (opening ++ bytes ++ closing ++ rest) (item :: items) :=
  .group .nil hframe hcontent h

theorem Written.readsAll {bytes : List UInt8} {items : List Item} (h : Written bytes items) :
    ReadsAll bytes items := by
  induction h with
  | nil => exact .nil
  | atom ht ha _ ih => exact .cons (ha.reads.behind ht ha.untagged) ih
  | group ht hframe _ _ ihContent ih =>
    refine .cons ((hframe.reads ihContent).behind ht fun rest => ?_) ih
    rw [List.append_assoc, List.append_assoc]
    exact hframe.untagged _

/-- One item is read from any of its spellings, if its arrays and maps are not nested too deep. -/
theorem Written.read {bytes : List UInt8} {item : Item} (h : Written bytes [item]) (depth : Nat)
    (rest : List UInt8) :
    Cbor.read depth (bytes ++ rest) = found depth item.levels item rest := by
  cases h.readsAll with
  | cons hitem hnil =>
    obtain rfl := hnil.eq_nil
    rw [List.append_nil, Cbor.read]
    refine hitem.read _ depth rest ?_
    rw [List.length_append]
    omega

end VehicleLink.Cbor
