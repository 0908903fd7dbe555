import VehicleLink.Proofs.AddressText
import VehicleLink.Proofs.CborSpellings
import VehicleLink.Proofs.DeviceFile

/-!
# Device files that something else has written

What a file says does not depend on how its map is written down. The reader takes the entries one
after the other, but what becomes of each field depends on the values of its own key alone
(`fields_flat`). So a map is read by the two lists of these values: it `Tells` of a set of devices
if they do, in any order, with repetitions and in letters of both cases, and if nothing under
another name is in the way; and it is `Spoiled` by a text that is no address and by a second value.
`decode_rewritten` says so of the bytes, and `decode_refuses_entries` what may stand in the way.
-/

namespace VehicleLink

/-! ## Sets with the same members -/

namespace AddressSet

theorem mem_foldl_insert {a : Address} {l : List Address} {s : AddressSet} :
    a ∈ l.foldl (fun s a => s.insert a) s ↔ a ∈ l ∨ a ∈ s := by
  induction l generalizing s with
  | nil => simp
  | cons b l ih =>
    rw [List.foldl_cons, ih, mem_insert, List.mem_cons]
    tauto

theorem mem_ofList {a : Address} {l : List Address} : a ∈ ofList l ↔ a ∈ l := by
  rw [ofList, mem_foldl_insert]
  exact or_iff_left List.not_mem_nil

theorem nodup (s : AddressSet) : s.toList.Nodup := by
  refine s.ascending.imp ?_
  rintro a b hlt rfl
  exact Nat.lt_irrefl _ hlt

/-- Sets with the same members are the same, because the members stand in ascending order. -/
theorem ext {s t : AddressSet} (h : ∀ a, a ∈ s ↔ a ∈ t) : s = t := by
  have hperm : s.toList.Perm t.toList := (List.perm_ext_iff_of_nodup s.nodup t.nodup).2 h
  refine toList_injective (hperm.eq_of_pairwise ?_ s.ascending t.ascending)
  intro a b _ _ hab hba
  exact absurd hba (Nat.lt_asymm hab)

end AddressSet

namespace DeviceFile

open Cbor

/-! ## The entries of a map -/

/-- Keys and values in turn. -/
def flat (entries : List (Item × Item)) : List Item := entries.flatMap fun e => [e.1, e.2]

/-- Whether an entry lets the others be read: its key is a name, and what it holds for an unknown
name can be skipped. -/
def passes (e : Item × Item) : Bool :=
  match key? e.1 with
  | none => false
  | some .other => isSkippable e.2
  | some _ => true

/-- The values of a key. -/
def valuesAt (key : Key) (entries : List (Item × Item)) : List Item :=
  (entries.filter fun e => key? e.1 = some key).map (·.2)

theorem valuesAt_cons {e : Item × Item} {key : Key} (h : key? e.1 = some key) (key' : Key)
    (entries : List (Item × Item)) :
    valuesAt key' (e :: entries) =
      if key = key' then e.2 :: valuesAt key' entries else valuesAt key' entries := by
  simp only [valuesAt, List.filter_cons, h, Option.some.injEq, decide_eq_true_eq]
  split <;> rfl

/-- A field after more values for it, of which there may be one in all. -/
def fill {α : Type} (read : Item → Option α) : Option α → List Item → Option (Option α)
  | field, [] => some field
  | field, value :: values =>
    if field.isSome then none else (read value).bind fun a => fill read (some a) values

/-- The fields of a map do not depend on how the entries of one key stand among the others. -/
theorem fields_flat (entries : List (Item × Item)) (f : Fields) :
    fields? (flat entries) f =
      if entries.all passes then
        (fill last? f.last (valuesAt .last entries)).bind fun last =>
          (fill known? f.known (valuesAt .known entries)).map fun known => ⟨last, known⟩
      else none := by
  induction entries generalizing f with
  | nil => rfl
  | cons e entries ih =>
    have hflat : flat (e :: entries) = e.1 :: e.2 :: flat entries := rfl
    rw [hflat, fields?, List.all_cons]
    cases hkey : key? e.1 with
    | none => simp [passes, hkey]
    | some key =>
      simp only [passes, hkey, valuesAt_cons hkey]
      cases key with
      | last =>
        simp only [ih, fill, if_true, Bool.true_and, reduceCtorEq, if_false]
        cases f.last.isSome <;> cases last? e.2 <;> simp
      | known =>
        simp only [ih, fill, if_true, Bool.true_and, reduceCtorEq, if_false]
        -- What is known may be refused before or behind what was connected last.
        cases fill last? f.last (valuesAt .last entries) <;> cases f.known.isSome <;>
          cases known? e.2 <;> simp
      | other =>
        simp only [ih, reduceCtorEq, if_false]
        cases isSkippable e.2 with
        | false => rfl
        | true => rfl

/-! ## Names -/

/-- The text in one piece that a key is. -/
def name? (key : Item) : Option (List Char) :=
  match key.untagged with
  | .text true s => some s
  | _ => none

/-- A key is not the name of a field. -/
def Unknown (key : Item) : Prop := name? key ≠ some lastKey ∧ name? key ≠ some knownKey

theorem unknown_iff {key : Item} {name : List Char} (h : name? key = some name) :
    Unknown key ↔ name ≠ lastKey ∧ name ≠ knownKey := by
  simp [Unknown, h]

/-- The values of the entries with a name. -/
def valuesOf (name : List Char) (entries : List (Item × Item)) : List Item :=
  (entries.filter fun e => name? e.1 = some name).map (·.2)

theorem mem_valuesOf {name : List Char} {entries : List (Item × Item)} {value : Item} :
    value ∈ valuesOf name entries ↔ ∃ key, (key, value) ∈ entries ∧ name? key = some name := by
  simp [valuesOf]

theorem key_of_name {key : Item} {name : List Char} (h : name? key = some name) :
    key? key = keyOfBytes (Utf8.encode name) := by
  simp only [name?] at h
  split at h
  · rename_i s hs
    cases h
    simp only [key?, hs]
  · cases h

/-- Each field has one name. -/
theorem keyOfBytes_inj {b b' : List UInt8} {k : Key} (hk : k ≠ .other)
    (h : keyOfBytes b = some k) (h' : keyOfBytes b' = some k) : b = b' := by
  unfold keyOfBytes at h h'
  grind

theorem keyOfBytes_other {name : List Char} (hlength : (Utf8.encode name).length ≤ keyLimit)
    (hlast : name ≠ lastKey) (hknown : name ≠ knownKey) :
    keyOfBytes (Utf8.encode name) = some .other := by
  rw [keyOfBytes, if_neg (Nat.not_lt.2 hlength), if_neg (mt Utf8.encode_inj.1 hlast),
    if_neg (mt Utf8.encode_inj.1 hknown)]

section
variable {field : List Char} {k : Key} (hk : k ≠ .other)
  (hfield : keyOfBytes (Utf8.encode field) = some k)
include hk hfield

theorem key_eq_iff {key : Item} {name : List Char} (h : name? key = some name) :
    key? key = some k ↔ name = field := by
  rw [key_of_name h]
  constructor
  · exact fun hkey => Utf8.encode_inj.1 (keyOfBytes_inj hk hkey hfield)
  · rintro rfl
    exact hfield

theorem valuesAt_eq {entries : List (Item × Item)}
    (hkeys : ∀ e ∈ entries, (name? e.1).isSome = true) :
    valuesAt k entries = valuesOf field entries := by
  refine congrArg _ (List.filter_congr fun e he => ?_)
  obtain ⟨name, hname⟩ := Option.isSome_iff_exists.1 (hkeys e he)
  simp [key_eq_iff hk hfield hname, hname]

end

theorem key_of_lastKey : keyOfBytes (Utf8.encode lastKey) = some .last := by decide

theorem key_of_knownKey : keyOfBytes (Utf8.encode knownKey) = some .known := by decide

/-! ## Addresses -/

/-- An item is a text, whole or in chunks, that is an address in letters of either case. -/
def SpelledAs (a : Address) (item : Item) : Prop :=
  ∃ whole s, item.untagged = .text whole s ∧ s.map Char.toUpper = a.chars

theorem address_eq_some_iff {item : Item} {a : Address} :
    address? item = some a ↔ SpelledAs a item := by
  constructor
  · intro h
    simp only [address?] at h
    split at h
    · rename_i whole s hs
      rw [Address.parse_eq_some_iff, String.toList_ofList] at h
      exact ⟨whole, s, hs, h⟩
    · cases h
  · rintro ⟨whole, s, hs, ha⟩
    simp only [address?, hs]
    rw [Address.parse_eq_some_iff, String.toList_ofList]
    exact ha

/-- Items are addresses if each of them is. -/
theorem mapM_address_eq (items : List Item) :
    items.mapM address? =
      if items.all fun item => (address? item).isSome then some (items.filterMap address?)
      else none := by
  induction items with
  | nil => rfl
  | cons item items ih =>
    rw [List.mapM_cons, ih]
    cases h : address? item with
    | none => simp [h]
    | some a =>
      simp only [List.all_cons, h, Option.isSome_some, Bool.true_and, List.filterMap_cons]
      split <;> rfl

/-- Items list the members of a set: they are members in some order, and each member is among
them. -/
structure Lists (items : List Item) (known : AddressSet) : Prop where
  only : ∀ item ∈ items, ∃ a ∈ known, SpelledAs a item
  all : ∀ a ∈ known, ∃ item ∈ items, SpelledAs a item

theorem Lists.known {items : List Item} {known : AddressSet} (h : Lists items known)
    {value : Item} (hv : value.untagged = .array items) : known? value = some known := by
  have hall : (items.all fun item => (address? item).isSome) = true := by
    refine List.all_eq_true.2 fun item hitem => ?_
    obtain ⟨a, -, ha⟩ := h.only item hitem
    rw [address_eq_some_iff.2 ha, Option.isSome_some]
  have hset : AddressSet.ofList (items.filterMap address?) = known := by
    refine AddressSet.ext fun a => ?_
    rw [AddressSet.mem_ofList, List.mem_filterMap]
    simp only [address_eq_some_iff]
    constructor
    · rintro ⟨item, hitem, ha⟩
      obtain ⟨b, hb, hspell⟩ := h.only item hitem
      obtain rfl : b = a := Option.some.inj
        ((address_eq_some_iff.2 hspell).symm.trans (address_eq_some_iff.2 ha))
      exact hb
    · exact h.all a
  simp only [known?, hv]
  rw [mapM_address_eq, if_pos hall, Option.map_some, hset]

/-! ## Texts anywhere in a value -/

/-- A text stands somewhere in an item. -/
inductive Holds (s : List Char) : Item → Prop
  | text {whole : Bool} : Holds s (.text whole s)
  | array {items : List Item} {item : Item} : item ∈ items → Holds s item → Holds s (.array items)
  | map {entries : List Item} {item : Item} :
    item ∈ entries → Holds s item → Holds s (.map entries)
  | tagged {tags : List Nat} {item : Item} : Holds s item → Holds s (.tagged tags item)

section
variable {s : List Char} {value : Item}

theorem Holds.untagged (h : Holds s value) : Holds s value.untagged := by
  induction h with
  | text => exact .text
  | array hitem h => exact .array hitem h
  | map hitem h => exact .map hitem h
  | tagged _ ih => exact ih

/-- An address holds no other text. -/
theorem Holds.address (h : Holds s value) (ha : (address? value).isSome = true) :
    Address.Spelled (String.ofList s) := by
  have hs := h.untagged
  simp only [address?] at ha
  split at ha
  · rename_i whole s' hv
    rw [hv] at hs
    cases hs
    by_contra hbad
    rw [(Address.parse_eq_none_iff _).2 hbad] at ha
    cases ha
  · cases ha

theorem Holds.last (h : Holds s value) (hv : (last? value).isSome = true) :
    Address.Spelled (String.ofList s) := by
  refine h.address ?_
  cases value with
  | null | undefined => cases h
  | _ => simpa [last?] using hv

theorem Holds.known (h : Holds s value) (hv : (known? value).isSome = true) :
    Address.Spelled (String.ofList s) := by
  have hs := h.untagged
  simp only [known?] at hv
  split at hv
  · rename_i items heq
    rw [heq] at hs
    cases hs with
    | array hitem h =>
      rw [mapM_address_eq] at hv
      split at hv
      · rename_i hall
        exact h.address (List.all_eq_true.1 hall _ hitem)
      · cases hv
  · rename_i heq
    rw [heq] at hs
    cases hs
  · cases hv

end

/-! ## Filling a field -/

section
variable {α : Type} {read : Item → Option α}

/-- A field that is filled had one value at most, and that one was read. -/
theorem fill_isSome {field : Option α} {values : List Item}
    (h : (fill read field values).isSome = true) :
    values.length ≤ 1 ∧ ∀ value ∈ values, (read value).isSome = true := by
  cases values with
  | nil => simp
  | cons value values =>
    rw [fill] at h
    split at h
    · cases h
    cases hread : read value with
    | none => simp [hread] at h
    | some a =>
      rw [hread, Option.bind_some] at h
      cases values with
      | nil => simp [hread]
      | cons value' values => simp [fill] at h

theorem fill_one {value : Item} {a : α} (h : read value = some a) :
    fill read none [value] = some (some a) := by
  simp [fill, h]

end

/-! ## Maps that tell of a set of devices, and others -/

/-- What the values of the last connected address say of it: one text that is the address, or
null, or nothing. -/
inductive LastIs : Option Address → List Item → Prop
  | absent : LastIs none []
  | null : LastIs none [.null]
  | address {a : Address} {value : Item} : SpelledAs a value → LastIs (some a) [value]

/-- A map tells of a set of devices: it has both fields, of which the last connected address may be
missing, and under other names, none of them too long, what is not nested too deep. -/
structure Tells (devices : DeviceSet) (entries : List (Item × Item)) : Prop where
  last : LastIs devices.lastConnected (valuesOf lastKey entries)
  known : ∃ value items, valuesOf knownKey entries = [value] ∧ value.untagged = .array items ∧
    Lists items devices.known
  names : ∀ e ∈ entries, ∀ name, name? e.1 = some name → (Utf8.encode name).length ≤ keyLimit
  others : ∀ e ∈ entries, Unknown e.1 → e.2.nesting ≤ nestingLimit

/-- A map is spoiled by a text in one of the fields that is no address, and by a field that it has
twice. -/
inductive Spoiled (entries : List (Item × Item)) : Prop
  | malformed {name s : List Char} {value : Item} :
    name = lastKey ∨ name = knownKey → value ∈ valuesOf name entries → Holds s value →
      ¬ Address.Spelled (String.ofList s) → Spoiled entries
  | repeated {name : List Char} :
    name = lastKey ∨ name = knownKey → 2 ≤ (valuesOf name entries).length → Spoiled entries

theorem LastIs.fill {last : Option Address} {values : List Item} (h : LastIs last values) :
    ∃ field, fill last? none values = some field ∧ field.join = last := by
  cases h with
  | absent => exact ⟨none, rfl, rfl⟩
  | null => exact ⟨some none, rfl, rfl⟩
  | @address a value h =>
    have hvalue : last? value = some (some a) := by
      have ha := address_eq_some_iff.2 h
      cases value with
      | null | undefined => cases ha
      | _ => simp only [last?, ha, Option.map_some]
    exact ⟨some (some a), fill_one hvalue, rfl⟩

section
variable {entries : List (Item × Item)} {devices : DeviceSet} (tags : List Nat)
  (hkeys : ∀ e ∈ entries, (name? e.1).isSome = true)
include hkeys

theorem ofItem_flat :
    ofItem? ((Item.map (flat entries)).behind tags) =
      if entries.all passes then
        (fill last? none (valuesOf lastKey entries)).bind fun last =>
          (fill known? none (valuesOf knownKey entries)).bind fun known =>
            known.map fun known => ⟨last.join, known⟩
      else none := by
  simp only [ofItem?, untagged_behind, Item.untagged, fields_flat,
    valuesAt_eq (by decide) key_of_lastKey hkeys, valuesAt_eq (by decide) key_of_knownKey hkeys]
  split
  · cases fill last? none (valuesOf lastKey entries) <;>
      cases fill known? none (valuesOf knownKey entries) <;> rfl
  · rfl

/-- Nothing in such a map is in the way of its fields. -/
theorem Tells.passes (h : Tells devices entries)
    (hrange : ∀ e ∈ entries, Unknown e.1 → e.2.inRange = true) :
    entries.all passes = true := by
  refine List.all_eq_true.2 fun e he => ?_
  obtain ⟨name, hname⟩ := Option.isSome_iff_exists.1 (hkeys e he)
  have hlen := h.names e he name hname
  have hkey := key_of_name hname
  by_cases hlast : name = lastKey
  · simp [DeviceFile.passes, hkey, hlast, key_of_lastKey]
  by_cases hknown : name = knownKey
  · simp [DeviceFile.passes, hkey, hknown, key_of_knownKey]
  · rw [keyOfBytes_other hlen hlast hknown] at hkey
    have hunknown := (unknown_iff hname).2 ⟨hlast, hknown⟩
    simp [DeviceFile.passes, hkey, isSkippable, h.others e he hunknown, hrange e he hunknown]

theorem Tells.ofItem (h : Tells devices entries)
    (hrange : ∀ e ∈ entries, Unknown e.1 → e.2.inRange = true) :
    ofItem? ((Item.map (flat entries)).behind tags) = some devices := by
  obtain ⟨field, hfill, hjoin⟩ := h.last.fill
  obtain ⟨value, items, hvalues, hvalue, hlists⟩ := h.known
  rw [ofItem_flat tags hkeys, if_pos (h.passes hkeys hrange), hfill, hvalues,
    fill_one (hlists.known hvalue)]
  simp only [Option.bind_some, Option.map_some, hjoin]

/-- No devices are found in a map that is spoiled: both fields would have to be filled. -/
theorem Spoiled.ofItem (h : Spoiled entries) :
    ofItem? ((Item.map (flat entries)).behind tags) = none := by
  refine Option.eq_none_iff_forall_ne_some.2 fun devices hdevices => ?_
  rw [ofItem_flat tags hkeys] at hdevices
  split at hdevices
  · obtain ⟨last, hlast, hdevices⟩ := Option.bind_eq_some_iff.1 hdevices
    obtain ⟨known, hknown, -⟩ := Option.bind_eq_some_iff.1 hdevices
    obtain ⟨hone, hread⟩ := fill_isSome (Option.isSome_iff_exists.2 ⟨last, hlast⟩)
    obtain ⟨hone', hread'⟩ := fill_isSome (Option.isSome_iff_exists.2 ⟨known, hknown⟩)
    cases h with
    | malformed hname hvalue hs hbad =>
      rcases hname with rfl | rfl
      · exact hbad (hs.last (hread _ hvalue))
      · exact hbad (hs.known (hread' _ hvalue))
    | repeated hname htwice =>
      rcases hname with rfl | rfl
      · omega
      · omega
  · cases hdevices

end

/-! ## The bytes of such maps -/

theorem levels_of_text {item : Item} {whole : Bool} {s : List Char}
    (h : item.untagged = .text whole s) : item.levels = 0 := by
  rw [← levels_untagged, h]
  rfl

theorem levels_of_name {key : Item} {name : List Char} (h : name? key = some name) :
    key.levels = 0 := by
  simp only [name?] at h
  split at h
  · rename_i s hs
    exact levels_of_text hs
  · cases h

theorem LastIs.levels {last : Option Address} {values : List Item} (h : LastIs last values)
    {value : Item} (hvalue : value ∈ values) : value.levels = 0 := by
  cases h with
  | absent => cases hvalue
  | null =>
    cases List.mem_singleton.1 hvalue
    rfl
  | address ha =>
    cases List.mem_singleton.1 hvalue
    obtain ⟨whole, s, hs, -⟩ := ha
    exact levels_of_text hs

theorem Lists.levels {items : List Item} {known : AddressSet} (h : Lists items known)
    {value : Item} (hvalue : value.untagged = .array items) : value.levels ≤ 1 := by
  rw [← levels_untagged, hvalue, Item.levels, Nat.add_le_add_iff_right (k := 0), levelsOfAll_le_iff]
  intro item hitem
  obtain ⟨a, -, whole, s, hs, -⟩ := h.only item hitem
  exact Nat.le_of_eq (levels_of_text hs)

/-- The fields are flat, so that the map is not nested deeper than the reader goes. -/
theorem Tells.levels {entries : List (Item × Item)} {devices : DeviceSet}
    (h : Tells devices entries) (hkeys : ∀ e ∈ entries, (name? e.1).isSome = true) :
    (Item.map (flat entries)).levels ≤ nestingLimit + 1 := by
  rw [Item.levels, Nat.add_le_add_iff_right, levelsOfAll_le_iff]
  intro item hitem
  obtain ⟨⟨key, value⟩, he, hitem⟩ := List.mem_flatMap.1 hitem
  obtain ⟨name, hname⟩ := Option.isSome_iff_exists.1 (hkeys _ he)
  simp only [List.mem_cons, List.not_mem_nil, or_false] at hitem
  rcases hitem with rfl | rfl
  · rw [levels_of_name hname]
    exact Nat.zero_le _
  by_cases hlast : name = lastKey
  · have hvalue : item ∈ valuesOf lastKey entries := mem_valuesOf.2 ⟨key, he, hlast ▸ hname⟩
    rw [h.last.levels hvalue]
    exact Nat.zero_le _
  by_cases hknown : name = knownKey
  · have hvalue : item ∈ valuesOf knownKey entries := mem_valuesOf.2 ⟨key, he, hknown ▸ hname⟩
    obtain ⟨value, items, hvalues, harray, hlists⟩ := h.known
    rw [hvalues] at hvalue
    cases List.mem_singleton.1 hvalue
    exact Nat.le_trans (hlists.levels harray) (by decide)
  · have hunknown := (unknown_iff hname).2 ⟨hlast, hknown⟩
    exact Nat.le_trans (levels_le_nesting item) (h.others _ he hunknown)

theorem decode_written {bytes : List UInt8} {item : Item} (h : Written bytes [item])
    (rest : List UInt8) :
    decode? (bytes ++ rest) =
      if item.levels ≤ nestingLimit + 1 then ofItem? item else none := by
  rw [decode?, h.read, found]
  split <;> rfl

/-- A file whose keys are texts in one piece holds the devices that its map tells of, however the
map is written and whatever else stands in it, as far as its integers are in range; if the map is
spoiled, the file holds none. -/
theorem decode_rewritten {bytes : List UInt8} {tags : List Nat} {entries : List (Item × Item)}
    (hwritten : Written bytes [(Item.map (flat entries)).behind tags])
    (hkeys : ∀ e ∈ entries, (name? e.1).isSome = true) (rest : List UInt8) :
    (∀ devices, Tells devices entries →
      (∀ e ∈ entries, Unknown e.1 → e.2.inRange = true) →
      decode (bytes ++ rest) = .ok devices) ∧
    (Spoiled entries → ∃ reason, decode (bytes ++ rest) = .error (.decode reason)) := by
  have hread := decode_written hwritten rest
  rw [levels_behind] at hread
  constructor
  · intro devices htells hrange
    rw [if_pos (htells.levels hkeys), htells.ofItem tags hkeys hrange] at hread
    rw [decode, hread]
  · intro hspoiled
    rw [hspoiled.ofItem tags hkeys, ite_self] at hread
    exact ⟨_, by rw [decode, hread]⟩

/-- Entries in another order than the writer's, one of them unknown, with one address in letters of
both cases. -/
def reordered (small capital : List Char) : List (Item × Item) :=
  [(.text true knownKey, .array [.text true small, .text true capital, .text true small]),
    (.text true ['x'], .map [.tagged [0] .float, .null]),
    (.text true lastKey, .text true small)]

section
variable {a : Address} {small capital : List Char}

theorem tells_reordered (hsmall : small.map Char.toUpper = a.chars)
    (hcapital : capital.map Char.toUpper = a.chars) :
    Tells ⟨some a, AddressSet.ofList [a]⟩ (reordered small capital) where
  last := .address ⟨true, small, rfl, hsmall⟩
  known := by
    have hs : SpelledAs a (.text true small) := ⟨true, small, rfl, hsmall⟩
    have hc : SpelledAs a (.text true capital) := ⟨true, capital, rfl, hcapital⟩
    exact ⟨_, _, rfl, rfl, by simp [AddressSet.mem_ofList, hs, hc],
      by simp [AddressSet.mem_ofList, hs]⟩
  names := by
    have hlength : ∀ name ∈ [knownKey, ['x'], lastKey],
        (Utf8.encode name).length ≤ keyLimit := by decide
    simpa [reordered, name?, Item.untagged] using hlength
  others := by
    simp only [reordered, List.forall_mem_cons]
    exact ⟨fun h => absurd rfl h.2, fun _ => by decide, fun h => absurd rfl h.1, by simp⟩

theorem written_reordered (small capital : List Char)
    (hsmall : (Utf8.encode small).length < UInt64.size)
    (hcapital : (Utf8.encode capital).length < UInt64.size) :
    Written ([0xBF] ++ writeText knownKey ++ [0x83] ++ writeText small ++ writeText capital ++
      writeText small ++ writeText ['x'] ++ [0xBF, 0xC0, 0xF9, 0, 0, 0xF6, 0xFF] ++
      writeText lastKey ++ writeText small ++ [0xFF]) [.map (flat (reordered small capital))] := by
  have hlist := Written.cons_text hsmall (.cons_text hcapital (.cons_text hsmall .nil))
  have hskipped : Written ([0xC0] ++ [] ++ [0xF9, 0, 0] ++ ([] ++ [0xF6] ++ []))
      [.tagged [0] .float, .null] :=
    .atom (.cons ⟨0, [], rfl, by decide, rfl, rfl⟩ .nil) .half (.atom .nil .null .nil)
  have hlast := Written.cons_text (s := lastKey) (by decide) (.cons_text hsmall .nil)
  have hothers := Written.cons_text (s := ['x']) (by decide)
    (.cons_group (.openMap 1 rfl) hskipped hlast)
  have hentries := Written.cons_text (s := knownKey) (by decide)
    (.cons_group (.array ⟨3, [], rfl, by decide, rfl, rfl⟩) hlist hothers)
  have hmap := Written.cons_group (.openMap 3 rfl) hentries .nil
  simpa [reordered, flat] using hmap

end

/-- A file with its entries in another order is read, and one with a text that is no address is
not. -/
theorem decode_rewritten_reordered :
    let a : Address := ⟨0, 0, 0, 0, 0, 0x0A⟩
    let small := "00:00:00:00:00:0a".toList
    decode ([0xBF] ++ writeText knownKey ++ [0x83] ++ writeText small ++ writeText a.chars ++
      writeText small ++ writeText ['x'] ++ [0xBF, 0xC0, 0xF9, 0, 0, 0xF6, 0xFF] ++
      writeText lastKey ++ writeText small ++ [0xFF] ++ []) =
        .ok ⟨some a, AddressSet.ofList [a]⟩ ∧
      ∃ reason, decode ([0xA1] ++ writeText lastKey ++ writeText ['x'] ++ []) =
        .error (.decode reason) := by
  intro a small
  constructor
  · have hwritten : Written _ [(Item.map (flat (reordered small a.chars))).behind []] :=
      written_reordered small a.chars (by decide) (by decide)
    refine (decode_rewritten hwritten ?_ []).1 _ (tells_reordered (by decide) (by decide)) ?_
    · simp [reordered, name?, Item.untagged]
    · simp only [reordered, List.forall_mem_cons]
      exact ⟨fun _ => rfl, fun _ => rfl, fun _ => rfl, by simp⟩
  · let entries : List (Item × Item) := [(.text true lastKey, .text true ['x'])]
    have hentries := Written.cons_text (s := lastKey) (by decide)
      (.cons_text (s := ['x']) (by decide) .nil)
    have hmap := Written.cons_group (.map 1 rfl ⟨1, [], rfl, by decide, rfl, rfl⟩)
      hentries .nil
    have hwritten : Written ([0xA1] ++ writeText lastKey ++ writeText ['x'])
        [(Item.map (flat entries)).behind []] := by simpa [entries, flat] using hmap
    have hspoiled : Spoiled entries := .malformed (.inl rfl) (.head _) .text (by decide)
    exact (decode_rewritten hwritten (by simp [entries, name?, Item.untagged]) []).2 hspoiled

/-- A map with an unknown entry and an empty list of known addresses. -/
def withEntry (key value : Item) : List (Item × Item) :=
  [(key, value), (.text true knownKey, .array [])]

theorem flat_withEntry (key value : Item) :
    flat (withEntry key value) = [key, value, .text true knownKey, .array []] := rfl

theorem tells_withEntry {key value : Item} (hkey : Unknown key)
    (hlength : ∀ name, name? key = some name → (Utf8.encode name).length ≤ keyLimit)
    (hvalue : value.nesting ≤ nestingLimit) : Tells {} (withEntry key value) where
  last := by
    have hvalues : valuesOf lastKey (withEntry key value) = [] := by
      simp only [valuesOf, withEntry, List.filter_cons, hkey.1]
      rfl
    rw [hvalues]
    exact .absent
  known := by
    refine ⟨.array [], [], ?_, rfl, ⟨by simp, fun a ha => absurd ha List.not_mem_nil⟩⟩
    simp only [valuesOf, withEntry, List.filter_cons, hkey.2]
    rfl
  names := by
    simp only [withEntry, List.forall_mem_cons]
    refine ⟨hlength, ?_, by simp⟩
    rintro name ⟨⟩
    decide
  others := by
    simp only [withEntry, List.forall_mem_cons]
    exact ⟨fun _ => hvalue, fun h => absurd rfl h.2, by simp⟩

/-- Well-formed entries that keep a file from being read: a negative integer that needs all bits
of sixteen bytes, a name in chunks, and a simple value without a meaning. -/
theorem decode_refuses_entries :
    let file := fun entry : List UInt8 => [0xA2] ++ entry ++ writeText knownKey ++ [0x80]
    let integer : Item := .tagged [3] (.bytes true (0x80 :: List.replicate 15 0))
    let negative := file (writeText ['x'] ++ ([0xC3, 0x50, 0x80] ++ List.replicate 15 0))
    let chunked := file ([0x7F] ++ writeText ['x'] ++ [0xFF] ++ [0xF6])
    (Written negative [.map (flat (withEntry (.text true ['x']) integer))] ∧
      Tells {} (withEntry (.text true ['x']) integer) ∧ decode negative ≠ .ok {}) ∧
    (Written chunked [.map (flat (withEntry (.text false ['x']) .null))] ∧
      Tells {} (withEntry (.text false ['x']) .null) ∧ decode chunked ≠ .ok {}) ∧
    decode (file (writeText ['x'] ++ [0xE0])) ≠ .ok {} := by
  intro file integer negative chunked
  have hopening : Headed [0xA2] 5 2 := ⟨2, [], rfl, by decide, rfl, rfl⟩
  have hempty : Written (writeText knownKey ++ [0x80]) [.text true knownKey, .array []] :=
    .cons_text (by decide) (.cons_group (.array ⟨0, [], rfl, by decide, rfl, rfl⟩) .nil .nil)
  have hrefused : ∀ {bytes}, decode? bytes = none → decode bytes ≠ .ok {} := fun h => by
    rw [decode, h]
    exact fun heq => by cases heq
  refine ⟨⟨?_, ?_, ?_⟩, ⟨?_, ?_, ?_⟩, ?_⟩
  · have hinteger : Written ([0xC3] ++ [] ++ ([0x50] ++ 0x80 :: List.replicate 15 0) ++
        (writeText knownKey ++ [0x80])) [integer, .text true knownKey, .array []] :=
      .atom (.cons ⟨3, [], rfl, by decide, rfl, rfl⟩ .nil)
        (.bytes ⟨16, [], rfl, by decide, rfl, rfl⟩) hempty
    have hmap := Written.cons_group (.map 2 rfl hopening)
      (.cons_text (s := ['x']) (by decide) hinteger) .nil
    simpa only [flat_withEntry, negative, file, List.append_assoc, List.append_nil,
      List.cons_append, List.nil_append] using hmap
  · exact tells_withEntry ⟨by decide, by decide⟩ (by rintro name ⟨⟩; decide) (by decide)
  · exact hrefused (by decide +kernel)
  · have hname : Chunks 3 (writeText ['x']) [Utf8.encode ['x']] :=
      .cons ⟨1, [], rfl, by decide, rfl, rfl⟩ .nil
    have hkey : Atom (0x7F :: (writeText ['x'] ++ [0xFF])) (.text false [['x']].flatten) :=
      .textChunks hname
    have hmap := Written.cons_group (.map 2 rfl hopening)
      (.atom .nil hkey (.atom .nil .null hempty)) .nil
    simpa only [flat_withEntry, chunked, file, behind_nil, List.flatten_cons, List.flatten_nil,
      List.append_assoc, List.append_nil, List.cons_append, List.nil_append] using hmap
  · exact tells_withEntry ⟨by decide, by decide⟩ (by rintro name ⟨⟩) (by decide)
  · exact hrefused (by decide +kernel)
  · exact hrefused (by decide +kernel)

end DeviceFile

end VehicleLink
