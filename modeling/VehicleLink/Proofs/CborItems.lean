import VehicleLink.Cbor.Item
import VehicleLink.Proofs.WrittenText
import Mathlib.Algebra.Group.Nat.Defs

/-!
# Items read back

What the writer of items produces and the reader makes of it, whatever bytes are behind, and what
it makes of a part of it. `Spells` says both of one item and `SpellsAll` of items in a row: read
whole they give the items and the bytes behind, and no proper beginning of them is read at all.

A head is read back by `readHead_head`; the writers of texts, arrays and maps keep `Spells` because
the reader takes the head first and then what the head announces.
-/

namespace VehicleLink.Cbor

/-! ## Beginnings of a byte string -/

/-- Bytes are a beginning of others, and not all of them. -/
def Cut (p bytes : List UInt8) : Prop := p <+: bytes ∧ p.length < bytes.length

theorem Cut.of_ne {p bytes : List UInt8} (h : p <+: bytes) (hne : p ≠ bytes) : Cut p bytes :=
  ⟨h, Nat.lt_of_le_of_ne h.length_le fun hl => hne (h.eq_of_length hl)⟩

theorem Cut.ne_nil {p bytes : List UInt8} (h : Cut p bytes) : bytes ≠ [] := by
  rintro rfl
  exact Nat.not_lt_zero _ h.2

/-- A string of two parts is cut in the first or in the second. -/
theorem Cut.append {p a b : List UInt8} (h : Cut p (a ++ b)) :
    Cut p a ∨ ∃ q, p = a ++ q ∧ Cut q b := by
  obtain ⟨hp, hlt⟩ := h
  rcases Nat.lt_or_ge p.length a.length with hl | hl
  · exact .inl ⟨List.prefix_of_prefix_length_le hp (List.prefix_append a b)
      (Nat.le_of_lt hl), hl⟩
  · obtain ⟨q, rfl⟩ := List.prefix_of_prefix_length_le (List.prefix_append a b) hp hl
    refine .inr ⟨q, rfl, (List.prefix_append_right_inj a).1 hp, ?_⟩
    simpa using hlt

/-! ## Taking bytes -/

theorem take_append (a rest : List UInt8) : take? a.length (a ++ rest) = some (a, rest) := by
  cases a with
  | nil => rfl
  | cons b a =>
    have hd : (b :: a ++ rest).drop a.length = (b :: a).drop a.length ++ rest :=
      List.drop_append_of_le_length (by simp)
    obtain ⟨x, hx⟩ : ∃ x, (b :: a).drop a.length = [x] :=
      List.length_eq_one_iff.1 (by simp)
    simp only [take?, List.length_cons, Nat.add_one_ne_zero, if_false, Nat.add_sub_cancel, hd, hx]
    simp

theorem take_short {n : Nat} {bytes : List UInt8} (h : bytes.length < n) :
    take? n bytes = none := by
  have hd : bytes.drop (n - 1) = [] := List.drop_eq_nil_of_le (by omega)
  rw [take?, if_neg (by omega), hd]

/-! ## Heads -/

theorem length_bigEndian (n v : Nat) : (bigEndian n v).length = n := by
  induction n generalizing v with
  | zero => rfl
  | succ n ih => simp [bigEndian, ih]

/-- A number's bytes read back as it, if they are enough. -/
theorem ofBigEndian_bigEndian {n v : Nat} (h : v < 256 ^ n) : ofBigEndian (bigEndian n v) = v := by
  induction n generalizing v with
  | zero =>
    obtain rfl : v = 0 := by simpa using h
    rfl
  | succ n ih =>
    have hv : v / 256 < 256 ^ n := Nat.div_lt_of_lt_mul (by rwa [Nat.pow_succ'] at h)
    rw [bigEndian, ofBigEndian, List.foldl_append, ← ofBigEndian, ih hv]
    simp only [List.foldl_cons, List.foldl_nil, UInt8.toNat_ofNat']
    omega

/-- A head is one byte with the major type and the low bits, and as many bytes as these ask for,
which hold the argument. -/
structure IsHead (bytes : List UInt8) (major n info : Nat) (argument : List UInt8) : Prop where
  split : bytes = UInt8.ofNat (major * 32 + info) :: argument
  info_lt : info < 31
  count : argumentBytes? info = some argument.length
  value : (if info < 24 then info else ofBigEndian argument) = n

/-- The shortest form for each size of argument is a head. -/
theorem head_isHead {n : Nat} (hn : n < UInt64.size) (major : Nat) :
    ∃ info argument, IsHead (head major n) major n info argument := by
  rw [head]
  split
  · next h => exact ⟨n, [], rfl, by omega, by simp [argumentBytes?, h], by simp [h]⟩
  split
  · next h => exact ⟨24, bigEndian 1 n, rfl, by decide, by rw [length_bigEndian]; rfl,
      ofBigEndian_bigEndian h⟩
  split
  · next h => exact ⟨25, bigEndian 2 n, rfl, by decide, by rw [length_bigEndian]; rfl,
      ofBigEndian_bigEndian h⟩
  split
  · next h => exact ⟨26, bigEndian 4 n, rfl, by decide, by rw [length_bigEndian]; rfl,
      ofBigEndian_bigEndian h⟩
  · exact ⟨27, bigEndian 8 n, rfl, by decide, by rw [length_bigEndian]; rfl,
      ofBigEndian_bigEndian hn⟩

theorem head_ne_nil (major n : Nat) : head major n ≠ [] := by
  rw [head]
  repeat' split
  all_goals simp

/-- The first byte of a head holds the major type and the low bits. -/
theorem toNat_first {major info : Nat} (hm : major < 8) (hi : info < 31) :
    (UInt8.ofNat (major * 32 + info)).toNat = major * 32 + info := by
  rw [UInt8.toNat_ofNat', Nat.mod_eq_of_lt (by omega)]

section
variable {bytes argument : List UInt8} {major n info : Nat}

/-- A head that is all there is read with its argument. -/
theorem IsHead.read (h : IsHead bytes major n info argument) (hm : major < 8)
    (rest : List UInt8) : readHead (bytes ++ rest) = some (major, info, .value n, rest) := by
  obtain ⟨rfl, hi, hc, hv⟩ := h
  have hdiv : (major * 32 + info) / 32 = major := by omega
  have hmod : (major * 32 + info) % 32 = info := by omega
  simp only [readHead, List.cons_append, toNat_first hm hi, hdiv, hmod, hc, Option.bind_some,
    take_append, Option.map_some, if_neg (show info ≠ 31 by omega)]
  split
  · next h24 => rw [if_pos h24] at hv; rw [hv]
  · next h24 => rw [if_neg h24] at hv; rw [hv]

/-- A head of which some bytes are missing is not read. -/
theorem IsHead.read_cut (h : IsHead bytes major n info argument) (hm : major < 8)
    {p : List UInt8} (hp : Cut p bytes) : readHead p = none := by
  obtain ⟨rfl, hi, hc, -⟩ := h
  obtain ⟨hpre, hlt⟩ := hp
  cases p with
  | nil => rfl
  | cons b p =>
    obtain ⟨rfl, hpre⟩ := List.cons_prefix_cons.1 hpre
    have hmod : (major * 32 + info) % 32 = info := by omega
    have hshort : p.length < argument.length := by simpa using hlt
    simp only [readHead, toNat_first hm hi, hmod, hc, Option.bind_some, take_short hshort,
      Option.map_none]

end

/-- A written head is read back, whatever is behind it. -/
theorem readHead_head {major n : Nat} (hm : major < 8) (hn : n < UInt64.size)
    (rest : List UInt8) :
    ∃ info, readHead (head major n ++ rest) = some (major, info, .value n, rest) := by
  obtain ⟨info, argument, h⟩ := head_isHead hn major
  exact ⟨info, h.read hm rest⟩

theorem readHead_cut {major n : Nat} (hm : major < 8) (hn : n < UInt64.size) {p : List UInt8}
    (hp : Cut p (head major n)) : readHead p = none := by
  obtain ⟨info, argument, h⟩ := head_isHead hn major
  exact h.read_cut hm hp

/-! ## One item from its head -/

/-- Where no tag's head is read, no more tags are. -/
theorem readTags_plain {bytes : List UInt8} {tags : List Nat} (fuel : Nat)
    (h : ∀ head, readHead bytes = some head → head.1 ≠ 6) :
    readTags fuel tags bytes = (tags.reverse, bytes) := by
  cases fuel with
  | zero => rfl
  | succ fuel =>
    rw [readTags]
    split
    · next h6 => exact absurd rfl (h _ h6)
    · rfl

@[simp] theorem behind_nil (item : Item) : item.behind [] = item := rfl

theorem readItem_headless {bytes : List UInt8} (fuel depth : Nat) (h : readHead bytes = none) :
    readItem fuel depth bytes = none := by
  cases fuel with
  | zero => rw [readItem]
  | succ fuel =>
    have ht : readTags fuel [] bytes = ([], bytes) := readTags_plain fuel (by simp [h])
    simp [readItem, ht, h]

section
variable {bytes rest : List UInt8} {info n : Nat}

/-- A text head announces so many bytes of UTF-8. -/
theorem readItem_text (fuel depth : Nat) (h : readHead bytes = some (3, info, .value n, rest)) :
    readItem (fuel + 1) depth bytes =
      (take? n rest).bind fun (b, rest) => (Utf8.decode? b).map fun s => (.text true s, rest) := by
  have ht : readTags fuel [] bytes = ([], bytes) := readTags_plain fuel (by simp [h])
  simp only [readItem, ht, h, behind_nil]
  exact congrFun Option.map_id _

/-- An array head announces so many items, one level further down. -/
theorem readItem_array (fuel depth : Nat) (h : readHead bytes = some (4, info, .value n, rest)) :
    readItem (fuel + 1) (depth + 1) bytes =
      (readItems fuel depth n rest).map fun (items, rest) => (.array items, rest) := by
  have ht : readTags fuel [] bytes = ([], bytes) := readTags_plain fuel (by simp [h])
  simp only [readItem, ht, h, behind_nil]
  exact congrFun Option.map_id _

/-- A map head announces so many pairs of items. -/
theorem readItem_map (fuel depth : Nat) (h : readHead bytes = some (5, info, .value n, rest)) :
    readItem (fuel + 1) (depth + 1) bytes =
      (readItems fuel depth (2 * n) rest).map fun (items, rest) => (.map items, rest) := by
  have ht : readTags fuel [] bytes = ([], bytes) := readTags_plain fuel (by simp [h])
  simp only [readItem, ht, h, behind_nil]
  exact congrFun Option.map_id _

end

/-! ## What bytes spell -/

/-- Bytes spell an item: they are read as it, whatever is behind them, and no proper beginning of
them is read. Two units of fuel for each byte and two more are enough for both. -/
structure Spells (depth : Nat) (bytes : List UInt8) (item : Item) : Prop where
  ne_nil : bytes ≠ []
  whole : ∀ (fuel : Nat) (rest : List UInt8), 2 * bytes.length + 2 ≤ fuel →
    readItem fuel depth (bytes ++ rest) = some (item, rest)
  cut : ∀ (fuel : Nat) {p : List UInt8}, Cut p bytes → 2 * p.length + 2 ≤ fuel →
    readItem fuel depth p = none

/-- Bytes spell items in a row. -/
structure SpellsAll (depth : Nat) (bytes : List UInt8) (items : List Item) : Prop where
  whole : ∀ (fuel : Nat) (rest : List UInt8), 2 * bytes.length + 3 ≤ fuel →
    readItems fuel depth items.length (bytes ++ rest) = some (items, rest)
  cut : ∀ (fuel : Nat) {p : List UInt8}, Cut p bytes → 2 * p.length + 3 ≤ fuel →
    readItems fuel depth items.length p = none

theorem SpellsAll.nil (depth : Nat) : SpellsAll depth [] [] where
  whole _ _ _ := by simp [readItems]
  cut _ _ hp := absurd rfl hp.ne_nil

/-- One more item in front. The reader spends a unit of fuel on each, for which the bytes of the
item pay. -/
theorem SpellsAll.cons {depth : Nat} {bytes rest : List UInt8} {item : Item} {items : List Item}
    (h : Spells depth bytes item) (hs : SpellsAll depth rest items) :
    SpellsAll depth (bytes ++ rest) (item :: items) where
  whole fuel behind hf := by
    have hpos := List.length_pos_iff.2 h.ne_nil
    rw [List.length_append] at hf
    obtain ⟨fuel, rfl⟩ : ∃ f, fuel = f + 1 := ⟨fuel - 1, by omega⟩
    have hfirst := h.whole fuel (rest ++ behind) (by omega)
    have hothers := hs.whole fuel behind (by omega)
    simp only [List.length_cons, readItems, List.append_assoc, hfirst, hothers, Option.bind_some,
      Option.map_some]
  cut fuel p hp hf := by
    obtain ⟨fuel, rfl⟩ : ∃ f, fuel = f + 1 := ⟨fuel - 1, by omega⟩
    rw [List.length_cons, readItems]
    rcases hp.append with hp | ⟨q, rfl, hq⟩
    · rw [h.cut fuel hp (by omega), Option.bind_none]
    · have hpos := List.length_pos_iff.2 h.ne_nil
      rw [List.length_append] at hf
      have hfirst := h.whole fuel q (by omega)
      have hothers := hs.cut fuel hq (by omega)
      simp only [hfirst, hothers, Option.bind_some, Option.map_none]

/-- Items spelled one after the other. -/
theorem SpellsAll.flatMap {α : Type} {depth : Nat} {f : α → List UInt8} {g : α → Item}
    (h : ∀ a, Spells depth (f a) (g a)) (l : List α) :
    SpellsAll depth (l.flatMap f) (l.map g) := by
  induction l with
  | nil => exact SpellsAll.nil depth
  | cons a rest ih => exact .cons (h a) ih

/-! ## What the writers spell -/

theorem spells_null (depth : Nat) : Spells depth writeNull .null where
  ne_nil := by decide
  whole fuel rest hf := by
    obtain ⟨fuel, rfl⟩ : ∃ f, fuel = f + 1 := ⟨fuel - 1, by omega⟩
    have h : readHead (writeNull ++ rest) = some (7, 22, .value 22, rest) := rfl
    have ht : readTags fuel [] (writeNull ++ rest) = ([], writeNull ++ rest) :=
      readTags_plain fuel (by simp [h])
    simp [readItem, ht, h, simple?]
  cut _ _ hp _ := by
    obtain rfl := List.length_eq_zero_iff.1 (Nat.lt_one_iff.1 hp.2)
    exact readItem_headless _ _ rfl

/-- A text that is not longer than a head can say. -/
theorem spells_text (depth : Nat) {s : List Char} (hs : (Utf8.encode s).length < UInt64.size) :
    Spells depth (writeText s) (.text true s) where
  ne_nil := by simp [writeText, head_ne_nil]
  whole fuel rest hf := by
    obtain ⟨fuel, rfl⟩ : ∃ f, fuel = f + 1 := ⟨fuel - 1, by omega⟩
    obtain ⟨info, h⟩ := readHead_head (by decide : 3 < 8) hs (Utf8.encode s ++ rest)
    rw [writeText, List.append_assoc, readItem_text fuel depth h, take_append]
    simp only [Option.bind_some, Utf8.decode_encode, Option.map_some]
  cut fuel p hp hf := by
    obtain ⟨fuel, rfl⟩ : ∃ f, fuel = f + 1 := ⟨fuel - 1, by omega⟩
    rcases hp.append with hp | ⟨q, rfl, hq⟩
    · exact readItem_headless _ _ (readHead_cut (by decide) hs hp)
    · obtain ⟨info, h⟩ := readHead_head (by decide : 3 < 8) hs q
      rw [readItem_text fuel depth h, take_short hq.2, Option.bind_none]

/-- A head that announces items one level further down, and these items behind it. -/
theorem spells_group {depth major n : Nat} {bytes : List UInt8} {items : List Item}
    {wrap : List Item → Item} (hm : major < 8) (hn : n < UInt64.size)
    (hread : ∀ {fuel info : Nat} {bytes rest : List UInt8},
      readHead bytes = some (major, info, .value n, rest) →
      readItem (fuel + 1) (depth + 1) bytes =
        (readItems fuel depth items.length rest).map fun (items, rest) => (wrap items, rest))
    (h : SpellsAll depth bytes items) :
    Spells (depth + 1) (head major n ++ bytes) (wrap items) where
  ne_nil := by simp [head_ne_nil]
  whole fuel rest hf := by
    obtain ⟨fuel, rfl⟩ : ∃ f, fuel = f + 1 := ⟨fuel - 1, by omega⟩
    have hpos := List.length_pos_iff.2 (head_ne_nil major n)
    rw [List.length_append] at hf
    obtain ⟨info, hh⟩ := readHead_head hm hn (bytes ++ rest)
    rw [List.append_assoc, hread hh, h.whole fuel rest (by omega), Option.map_some]
  cut fuel p hp hf := by
    obtain ⟨fuel, rfl⟩ : ∃ f, fuel = f + 1 := ⟨fuel - 1, by omega⟩
    rcases hp.append with hp | ⟨q, rfl, hq⟩
    · exact readItem_headless _ _ (readHead_cut hm hn hp)
    · have hpos := List.length_pos_iff.2 (head_ne_nil major n)
      rw [List.length_append] at hf
      obtain ⟨info, hh⟩ := readHead_head hm hn q
      rw [hread hh, h.cut fuel hq (by omega), Option.map_none]

theorem spells_array {depth : Nat} {bytes : List UInt8} {items : List Item}
    (h : SpellsAll depth bytes items) (hn : items.length < UInt64.size) :
    Spells (depth + 1) (head 4 items.length ++ bytes) (.array items) :=
  spells_group (by decide) hn (readItem_array _ _) h

/-- A map is headed by the number of its pairs. -/
theorem spells_map {depth n : Nat} {bytes : List UInt8} {entries : List Item}
    (h : SpellsAll depth bytes entries) (hl : entries.length = 2 * n) (hn : n < UInt64.size) :
    Spells (depth + 1) (head 5 n ++ bytes) (.map entries) :=
  spells_group (by decide) hn (fun hh => hl ▸ readItem_map _ _ hh) h

section
variable {depth : Nat} {bytes : List UInt8} {item : Item}

/-- The reader's own fuel is enough for an item and what is behind it. -/
theorem Spells.read (h : Spells depth bytes item) (rest : List UInt8) :
    Cbor.read depth (bytes ++ rest) = some (item, rest) :=
  h.whole _ rest (by rw [List.length_append]; omega)

theorem Spells.read_cut (h : Spells depth bytes item) {p : List UInt8} (hp : Cut p bytes) :
    Cbor.read depth p = none :=
  h.cut _ hp (by omega)

end

end VehicleLink.Cbor
