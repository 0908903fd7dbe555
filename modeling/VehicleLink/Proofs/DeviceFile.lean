import VehicleLink.Cbor.DeviceFile
import VehicleLink.Proofs.CborItems

/-!
# Device files read back

A device file is one item (`spells_item`), of which the fields are read back one by one
(`ofItem_item`). So a file gives the devices it was written for whatever is appended to it, and a
file of which the end is missing gives an error, never fewer devices
(`DeviceFile.encode_lossless_selfDelimiting`).
-/

namespace VehicleLink

/-! ## Sets rebuilt from their members -/

theorem Address.key_lt (a : Address) : a.key < 2 ^ 48 := by
  have := a.o0.toNat_lt; have := a.o1.toNat_lt; have := a.o2.toNat_lt
  have := a.o3.toNat_lt; have := a.o4.toNat_lt; have := a.o5.toNat_lt
  simp only [key]
  omega

namespace AddressSet

/-- An address above all members goes to the end. -/
theorem insertInto_above {a : Address} {l : List Address} (h : ∀ b ∈ l, b.key < a.key) :
    insertInto a l = l ++ [a] := by
  induction l with
  | nil => rfl
  | cons b rest ih =>
    have hb : b.key < a.key := h b (.head _)
    have hne : a ≠ b := fun he => Nat.lt_irrefl _ (he ▸ hb)
    rw [insertInto, if_neg hne, if_neg (Nat.not_lt.2 (Nat.le_of_lt hb)),
      ih fun c hc => h c (.tail _ hc), List.cons_append]

/-- Inserting ascending addresses above all members appends them. -/
theorem toList_foldl_insert {l : List Address} :
    ∀ {s : AddressSet}, (s.toList ++ l).Pairwise (fun a b => a.key < b.key) →
      (l.foldl (fun s a => s.insert a) s).toList = s.toList ++ l := by
  induction l with
  | nil => intro s _; rw [List.foldl_nil, List.append_nil]
  | cons a rest ih =>
    intro s h
    have habove : ∀ b ∈ s.toList, b.key < a.key := fun b hb =>
      (List.pairwise_append.1 h).2.2 b hb a (.head _)
    have hs : (s.insert a).toList = s.toList ++ [a] := insertInto_above habove
    rw [List.foldl_cons, ih (by rwa [hs, List.append_assoc]), hs, List.append_assoc,
      List.singleton_append]

theorem toList_injective {s t : AddressSet} (h : s.toList = t.toList) : s = t := by
  cases s
  cases t
  cases h
  rfl

/-- A set is built again from its members. -/
theorem ofList_toList (s : AddressSet) : ofList s.toList = s := by
  have h : (ofList s.toList).toList = s.toList := toList_foldl_insert (s := empty) s.ascending
  exact toList_injective h

/-- Ascending addresses from a key on are not more than there are keys. -/
theorem length_of_ascending {l : List Address} {k : Nat}
    (h : l.Pairwise fun a b => a.key < b.key) (hk : ∀ a ∈ l, k ≤ a.key) :
    l.length ≤ 2 ^ 48 - k := by
  induction l generalizing k with
  | nil => exact Nat.zero_le _
  | cons a rest ih =>
    rw [List.pairwise_cons] at h
    have hrest := ih h.2 (k := a.key + 1) h.1
    have ha : a.key < 2 ^ 48 := Address.key_lt a
    have := hk a (.head _)
    rw [List.length_cons]
    omega

theorem size_le (s : AddressSet) : s.size ≤ 2 ^ 48 :=
  length_of_ascending s.ascending fun _ _ => Nat.zero_le _

end AddressSet

namespace DeviceFile

open Cbor

/-! ## The item of a file -/

/-- The item that an address is written as. -/
def addressItem (a : Address) : Item := .text true a.chars

/-- The item that the last connected address is written as. -/
def lastItem : Option Address → Item
  | some a => addressItem a
  | none => .null

/-- The item that a file is. -/
def item (d : DeviceSet) : Item :=
  .map [.text true lastKey, lastItem d.lastConnected, .text true knownKey,
    .array (d.known.toList.map addressItem)]

section
variable (depth : Nat)

theorem spells_address (a : Address) : Spells depth (writeText a.chars) (addressItem a) :=
  spells_text depth (by rw [Address.length_encode_chars]; decide)

theorem spells_last (last : Option Address) : Spells depth (writeLast last) (lastItem last) := by
  cases last with
  | some a => exact spells_address depth a
  | none => exact spells_null depth

/-- The known addresses: there are fewer of them than a head can say. -/
theorem spells_known (s : AddressSet) :
    Spells (depth + 1) (head 4 s.size ++ s.toList.flatMap fun a => writeText a.chars)
      (.array (s.toList.map addressItem)) := by
  have hn : (s.toList.map addressItem).length < UInt64.size := by
    rw [List.length_map]
    exact Nat.lt_of_le_of_lt s.size_le (by decide)
  have hsize : (s.toList.map addressItem).length = s.size := List.length_map _
  rw [← hsize]
  exact spells_array (SpellsAll.flatMap (spells_address depth) s.toList) hn

/-- A file is one item, with arrays and maps two levels deep. -/
theorem spells_item (d : DeviceSet) : Spells (depth + 2) (encode d) (item d) := by
  have hall := SpellsAll.cons (spells_text (depth + 1) (s := lastKey) (by decide))
    (.cons (spells_last (depth + 1) d.lastConnected)
      (.cons (spells_text (depth + 1) (s := knownKey) (by decide))
        (.cons (spells_known depth d.known) (.nil (depth + 1)))))
  have h := spells_map (n := 2) hall rfl (by decide)
  simpa only [encode, item, List.append_assoc, List.append_nil] using h

end

/-! ## Its fields -/

theorem address_addressItem (a : Address) : address? (addressItem a) = some a :=
  Address.parse_text a

theorem last_lastItem (last : Option Address) : last? (lastItem last) = some last := by
  cases last with
  | some a => exact congrArg (Option.map some) (address_addressItem a)
  | none => rfl

theorem mapM_address (l : List Address) : (l.map addressItem).mapM address? = some l := by
  induction l with
  | nil => rfl
  | cons a rest ih => simp [List.mapM_cons, address_addressItem, ih]

theorem known_knownItem (s : AddressSet) :
    known? (.array (s.toList.map addressItem)) = some s := by
  have h : known? (.array (s.toList.map addressItem)) =
      ((s.toList.map addressItem).mapM address?).map AddressSet.ofList := rfl
  rw [h, mapM_address, Option.map_some, AddressSet.ofList_toList]

theorem key_last : key? (.text true lastKey) = some .last := by decide

theorem key_known : key? (.text true knownKey) = some .known := by decide

/-- The devices of the item of a file. -/
theorem ofItem_item (d : DeviceSet) : ofItem? (item d) = some d := by
  simp [ofItem?, item, Item.untagged, fields?, key_last, key_known, last_lastItem,
    known_knownItem, Fields.devices?]

/-! ## The file -/

theorem spells_encode (d : DeviceSet) : Spells (nestingLimit + 1) (encode d) (item d) :=
  spells_item 254 d

theorem decode_append (d : DeviceSet) (rest : List UInt8) : decode (encode d ++ rest) = .ok d := by
  have h : decode? (encode d ++ rest) = some d := by
    rw [decode?, (spells_encode d).read]
    exact ofItem_item d
  rw [decode, h]

theorem decode_encode (d : DeviceSet) : decode (encode d) = .ok d := by
  simpa using decode_append d []

/-- The device file is lossless and delimits itself: with any bytes behind it reads as the devices
it was written for, and with any bytes missing at its end it is refused. -/
theorem encode_lossless_selfDelimiting (d : DeviceSet) (rest : List UInt8) :
    decode (encode d ++ rest) = .ok d ∧
      ∀ p, p <+: encode d → p ≠ encode d → ∃ reason, decode p = .error (.decode reason) := by
  refine ⟨decode_append d rest, fun p hp hne => ?_⟩
  have h : decode? p = none := by
    rw [decode?, (spells_encode d).read_cut (.of_ne hp hne), Option.bind_none]
  exact ⟨_, by rw [decode, h]⟩

/-- A set of 25 addresses, one more than a head of one byte can count. -/
theorem encode_lossless_selfDelimiting_twentyFive :
    let known := AddressSet.ofList ((List.range 25).map fun n => ⟨0, 0, 0, 0, 0, UInt8.ofNat n⟩)
    let d : DeviceSet := ⟨some ⟨0, 0, 0, 0, 0, 7⟩, known⟩
    known.size = 25 ∧ decode (encode d ++ [0xFF]) = .ok d ∧
      ∃ reason, decode ((encode d).take 300) = .error (.decode reason) := by
  intro known d
  have h := encode_lossless_selfDelimiting d [0xFF]
  refine ⟨by decide, h.1, h.2 _ (List.take_prefix _ _) ?_⟩
  decide +kernel

end DeviceFile

end VehicleLink
