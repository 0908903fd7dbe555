import VehicleLink.Proofs.WrittenText
import VehicleLink.Cbor.DeviceFile
import Mathlib.Data.Set.List

/-!
# Texts that are addresses

A text is read as an address exactly if it is the written form of that address in upper case
(`Address.parse_eq_some_iff`): a digit stands for one value in both cases, a pair of digits for one
octet, and groups for one list of octets. `Address.Spelled` says of a text what is between its
colons, without reading it; no text but those is read (`Address.reading_texts`).
-/

namespace VehicleLink

/-! ## Digits -/

namespace Hex

theorem toNat_toUpper (c : Char) :
    c.toUpper.toNat = if 97 ≤ c.toNat ∧ c.toNat ≤ 122 then c.toNat - 32 else c.toNat := by
  have hval : c.toNat = c.val.toNat := rfl
  unfold Char.toUpper
  split
  · rename_i h
    have h1 := UInt32.le_iff_toNat_le.1 h.1
    have h2 := UInt32.le_iff_toNat_le.1 h.2
    simp only [show 'a'.val.toNat = 97 from rfl, show 'z'.val.toNat = 122 from rfl] at h1 h2
    rw [if_pos ⟨h1, h2⟩]
    change (c.val + ('A'.val - 'a'.val)).toNat = _
    have : ('A'.val - 'a'.val).toNat = 4294967264 := rfl
    rw [UInt32.toNat_add, this, hval]
    omega
  · rename_i h
    rw [if_neg fun h' => h ⟨UInt32.le_iff_toNat_le.2 h'.1, UInt32.le_iff_toNat_le.2 h'.2⟩]

/-- A digit stands for one value in both cases. -/
theorem value_toUpper (c : Char) : value? c.toUpper = value? c := by
  simp only [value?, toNat_toUpper]
  grind

/-- A digit that is no lower-case letter is the one its value is written as. -/
theorem eq_upperDigit {c : Char} {n : Nat} (hc : c.toNat < 97) (h : value? c = some n) :
    n < 16 ∧ c = upperDigit n := by
  have hchar : c = Char.ofNat c.toNat := (Char.ofNat_toNat c).symm
  simp only [value?] at h
  split at h
  · cases h
    refine ⟨by omega, ?_⟩
    rw [upperDigit, if_pos (by omega), Nat.add_sub_cancel' (by omega)]
    exact hchar
  split at h
  · cases h
    refine ⟨by omega, ?_⟩
    rw [upperDigit, if_neg (by omega), Nat.add_sub_cancel' (by omega)]
    exact hchar
  split at h
  · omega
  · cases h

theorem value_eq_some_iff {c : Char} {n : Nat} :
    value? c = some n ↔ n < 16 ∧ c.toUpper = upperDigit n := by
  rw [← value_toUpper]
  constructor
  · intro h
    refine eq_upperDigit ?_ h
    have := toNat_toUpper c
    simp only [value?] at h
    grind
  · rintro ⟨hn, hc⟩
    rw [hc, value_upperDigit hn]

/-- Two digits spell a byte exactly if it is written as they are in upper case. -/
theorem byte_eq_some_iff {hi lo : Char} {b : UInt8} :
    byte? hi lo = some b ↔ [hi.toUpper, lo.toUpper] = upperByte b := by
  simp only [upperByte, List.cons.injEq, and_true]
  constructor
  · intro h
    unfold byte? at h
    split at h
    · rename_i m n hm hn
      obtain ⟨hm, hhi⟩ := value_eq_some_iff.1 hm
      obtain ⟨hn, hlo⟩ := value_eq_some_iff.1 hn
      have hb : b.toNat = 16 * m + n := by
        rw [← Option.some.inj h, UInt8.toNat_ofNat']
        omega
      rw [hhi, hlo, hb]
      exact ⟨by congr; omega, by congr; omega⟩
    · cases h
  · rintro ⟨hhi, hlo⟩
    have hb := b.toNat_lt
    rw [byte?, value_eq_some_iff.2 ⟨by omega, hhi⟩, value_eq_some_iff.2 ⟨by omega, hlo⟩]
    exact congrArg some (ofNat_digits b)

/-- A hexadecimal digit in either case. -/
def IsDigit (c : Char) : Prop :=
  '0' ≤ c ∧ c ≤ '9' ∨ 'A' ≤ c ∧ c ≤ 'F' ∨ 'a' ≤ c ∧ c ≤ 'f'

instance (c : Char) : Decidable (IsDigit c) := inferInstanceAs (Decidable (_ ∨ _))

theorem value_isSome_iff (c : Char) : (value? c).isSome = true ↔ IsDigit c := by
  have hle (a b : Char) : a ≤ b ↔ a.toNat ≤ b.toNat := UInt32.le_iff_toNat_le
  have h0 : '0'.toNat = 48 := rfl
  have h9 : '9'.toNat = 57 := rfl
  have hA : 'A'.toNat = 65 := rfl
  have hF : 'F'.toNat = 70 := rfl
  have ha : 'a'.toNat = 97 := rfl
  have hf : 'f'.toNat = 102 := rfl
  simp only [IsDigit, value?, hle, h0, h9, hA, hF, ha, hf]
  grind

theorem byte_isSome_iff (hi lo : Char) :
    (byte? hi lo).isSome = true ↔ IsDigit hi ∧ IsDigit lo := by
  rw [← value_isSome_iff, ← value_isSome_iff, byte?]
  cases value? hi <;> cases value? lo <;> simp

end Hex

/-! ## Groups -/

namespace Address

theorem eq_colon_of_toUpper {c : Char} (h : c.toUpper = ':') : c = ':' := by
  have hn := Hex.toNat_toUpper c
  rw [h] at hn
  refine Char.toNat_inj.1 ?_
  have : ':'.toNat = 58 := rfl
  grind

theorem groups_one_eq_some {cs : List Char} {bs : List UInt8} (h : groups? 1 cs = some bs) :
    ∃ hi lo b, cs = [hi, lo] ∧ Hex.byte? hi lo = some b ∧ bs = [b] := by
  unfold groups? at h
  split at h
  · cases h
  · rename_i hi lo _
    obtain ⟨b, hb, rfl⟩ := Option.map_eq_some_iff.1 h
    exact ⟨hi, lo, b, rfl, hb, rfl⟩
  · rename_i heq
    cases heq
    simp only [groups?] at h
    split at h
    · rename_i hnone
      cases hnone
    · cases h
  · cases h

theorem groups_more_eq_some {n : Nat} {cs : List Char} {bs : List UInt8}
    (h : groups? (n + 2) cs = some bs) :
    ∃ hi lo rest b bs', cs = hi :: lo :: ':' :: rest ∧ Hex.byte? hi lo = some b ∧
      groups? (n + 1) rest = some bs' ∧ bs = b :: bs' := by
  unfold groups? at h
  split at h
  · cases h
  · rename_i heq
    cases heq
  · rename_i hi lo rest heq
    cases heq
    split at h
    · rename_i b bs' hb hbs
      cases h
      exact ⟨hi, lo, rest, b, bs', rfl, hb, hbs, rfl⟩
    · cases h
  · cases h

/-- A text that is two digits in upper case, and what follows. -/
theorem pair_of_toUpper {cs rest : List Char} {b : UInt8}
    (h : cs.map Char.toUpper = Hex.upperByte b ++ rest) :
    ∃ hi lo cs', cs = hi :: lo :: cs' ∧ Hex.byte? hi lo = some b ∧ cs'.map Char.toUpper = rest := by
  obtain ⟨hi, cs, rfl, hhi, h⟩ := List.map_eq_cons_iff.1 h
  obtain ⟨lo, cs, rfl, hlo, h⟩ := List.map_eq_cons_iff.1 h
  exact ⟨hi, lo, cs, rfl, Hex.byte_eq_some_iff.2 (by rw [hhi, hlo]; rfl), h⟩

/-- The written form of octets of which there is more than one. -/
theorem intercalate_upperBytes (b b' : UInt8) (bs : List UInt8) :
    [':'].intercalate ((b :: b' :: bs).map Hex.upperByte) =
      Hex.upperByte b ++ ':' :: [':'].intercalate ((b' :: bs).map Hex.upperByte) := by
  rw [List.map_cons, List.map_cons, List.intercalate_cons_cons, List.append_assoc]
  rfl

/-- Groups are read exactly as the octets whose written form they are in upper case. -/
theorem groups_eq_some_iff {n : Nat} {cs : List Char} {bs : List UInt8} :
    groups? (n + 1) cs = some bs ↔
      bs.length = n + 1 ∧ cs.map Char.toUpper = [':'].intercalate (bs.map Hex.upperByte) := by
  induction n generalizing cs bs with
  | zero =>
    constructor
    · intro h
      obtain ⟨hi, lo, b, rfl, hb, rfl⟩ := groups_one_eq_some h
      exact ⟨rfl, Hex.byte_eq_some_iff.1 hb⟩
    · rintro ⟨hlength, hcs⟩
      obtain ⟨b, rfl⟩ := List.length_eq_one_iff.1 hlength
      obtain ⟨hi, lo, cs, rfl, hb, hrest⟩ := pair_of_toUpper (hcs.trans (List.append_nil _).symm)
      cases List.map_eq_nil_iff.1 hrest
      rw [groups?, hb]
      rfl
  | succ n ih =>
    constructor
    · intro h
      obtain ⟨hi, lo, rest, b, bs, rfl, hb, hbs, rfl⟩ := groups_more_eq_some h
      obtain ⟨hlength, hrest⟩ := ih.1 hbs
      obtain ⟨b', bs, rfl⟩ := List.exists_cons_of_length_eq_add_one hlength
      refine ⟨congrArg (· + 1) hlength, ?_⟩
      rw [intercalate_upperBytes, ← hrest, ← Hex.byte_eq_some_iff.1 hb]
      rfl
    · rintro ⟨hlength, hcs⟩
      obtain ⟨b, bs, rfl⟩ := List.exists_cons_of_length_eq_add_one hlength
      have hrest : bs.length = n + 1 := Nat.succ.inj hlength
      obtain ⟨b', bs, rfl⟩ := List.exists_cons_of_length_eq_add_one hrest
      obtain ⟨hi, lo, cs, rfl, hb, hcs⟩ := pair_of_toUpper (hcs.trans (intercalate_upperBytes ..))
      obtain ⟨c, cs, rfl, hc, htail⟩ := List.map_eq_cons_iff.1 hcs
      cases eq_colon_of_toUpper hc
      rw [groups?, hb, ih.2 ⟨hrest, htail⟩]

theorem chars_eq_intercalate (a : Address) :
    a.chars = [':'].intercalate (a.octets.map Hex.upperByte) := by
  simp [chars, octets]

theorem ofOctets_eq_some_iff {bs : List UInt8} {a : Address} :
    ofOctets? bs = some a ↔ bs = a.octets := by
  constructor
  · intro h
    unfold ofOctets? at h
    split at h
    · cases h
      rfl
    · cases h
  · rintro rfl
    rfl

/-- A text spells an address exactly if it is its written form in upper case. -/
theorem parse_eq_some_iff {s : String} {a : Address} :
    parse? s = some a ↔ s.toList.map Char.toUpper = a.chars := by
  rw [parse?, Option.bind_eq_some_iff, chars_eq_intercalate]
  constructor
  · rintro ⟨bs, hbs, ha⟩
    cases ofOctets_eq_some_iff.1 ha
    exact (groups_eq_some_iff.1 hbs).2
  · intro h
    exact ⟨a.octets, groups_eq_some_iff.2 ⟨rfl, h⟩, rfl⟩

/-! ## Spelling -/

/-- Two digits. -/
def IsPair (part : List Char) : Prop := part.length = 2 ∧ ∀ c ∈ part, Hex.IsDigit c

instance (part : List Char) : Decidable (IsPair part) :=
  @instDecidableAnd _ _ _ (List.decidableBAll _ part)

/-- The pieces between its colons are six pairs of digits. -/
structure Spelled (s : String) : Prop where
  six : (s.toList.splitOn ':').length = 6
  pairs : ∀ part ∈ s.toList.splitOn ':', IsPair part

instance (s : String) : Decidable (Spelled s) :=
  decidable_of_iff ((s.toList.splitOn ':').length = 6 ∧ ∀ part ∈ s.toList.splitOn ':', IsPair part)
    ⟨fun h => ⟨h.1, h.2⟩, fun h => ⟨h.six, h.pairs⟩⟩

/-- Colons stay where they are in upper case. -/
theorem splitOn_toUpper (cs : List Char) :
    (cs.map Char.toUpper).splitOn ':' = (cs.splitOn ':').map (·.map Char.toUpper) := by
  induction cs with
  | nil => rfl
  | cons c cs ih =>
    unfold List.splitOn at ih ⊢
    rw [List.map_cons, List.splitOnP_cons_eq_if_modifyHead, List.splitOnP_cons_eq_if_modifyHead, ih]
    by_cases hc : c = ':'
    · subst hc
      rfl
    · rw [if_neg (by simpa using mt eq_colon_of_toUpper hc), if_neg (by simpa using hc)]
      cases cs.splitOnP (· == ':') with
      | nil => rfl
      | cons part parts => rfl

theorem colon_not_mem_upperByte (b : UInt8) : ':' ∉ Hex.upperByte b := by
  have hdigit : ∀ n : Fin 16, ':' ≠ Hex.upperDigit n := by decide
  have hb := b.toNat_lt
  simp only [Hex.upperByte, List.mem_cons, List.not_mem_nil, or_false, not_or]
  exact ⟨hdigit ⟨b.toNat / 16, by omega⟩, hdigit ⟨b.toNat % 16, by omega⟩⟩

theorem splitOn_chars (a : Address) : a.chars.splitOn ':' = a.octets.map Hex.upperByte := by
  rw [chars_eq_intercalate]
  refine List.splitOn_intercalate ':' ?_ (by simp [octets])
  simp [colon_not_mem_upperByte]

/-- In upper case, what is between the colons is the octets of an address exactly if the whole is
its written form. -/
theorem splitOn_eq_octets_iff {cs : List Char} {a : Address} :
    (cs.splitOn ':').map (List.map Char.toUpper) = a.octets.map Hex.upperByte ↔
      cs.map Char.toUpper = a.chars := by
  rw [← splitOn_toUpper]
  constructor
  · intro h
    rw [chars_eq_intercalate, ← h, List.intercalate_splitOn]
  · intro h
    rw [h, splitOn_chars]

/-- A pair of digits is what some octet is written as, but for the case. -/
theorem pair_iff (part : List Char) :
    IsPair part ↔ ∃ b, Hex.upperByte b = part.map Char.toUpper := by
  constructor
  · rintro ⟨hlength, hdigits⟩
    obtain ⟨hi, lo, rfl⟩ : ∃ hi lo, part = [hi, lo] := by
      match part, hlength with
      | [hi, lo], _ => exact ⟨hi, lo, rfl⟩
    have hbyte := (Hex.byte_isSome_iff hi lo).2 ⟨hdigits hi (by simp), hdigits lo (by simp)⟩
    obtain ⟨b, hb⟩ := Option.isSome_iff_exists.1 hbyte
    exact ⟨b, (Hex.byte_eq_some_iff.1 hb).symm⟩
  · rintro ⟨b, hb⟩
    obtain ⟨hi, lo, rest, rfl, hbyte, hrest⟩ :=
      pair_of_toUpper (hb.symm.trans (List.append_nil _).symm)
    cases List.map_eq_nil_iff.1 hrest
    obtain ⟨hhi, hlo⟩ := (Hex.byte_isSome_iff hi lo).1 (Option.isSome_iff_exists.2 ⟨b, hbyte⟩)
    exact ⟨rfl, by simp [hhi, hlo]⟩

theorem exists_octets {bs : List UInt8} (h : bs.length = 6) : ∃ a : Address, a.octets = bs := by
  match bs, h with
  | [o0, o1, o2, o3, o4, o5], _ => exact ⟨⟨o0, o1, o2, o3, o4, o5⟩, rfl⟩

/-- The texts that are spelled out are those that are some address in upper case. -/
theorem spelled_iff (s : String) :
    Spelled s ↔ ∃ a : Address, s.toList.map Char.toUpper = a.chars := by
  constructor
  · rintro ⟨hsix, hpairs⟩
    obtain ⟨bs, hbs⟩ : (s.toList.splitOn ':').map (List.map Char.toUpper) ∈
        Set.range (List.map Hex.upperByte) := by
      rw [Set.range_list_map]
      simpa using fun part hpart => (pair_iff part).1 (hpairs part hpart)
    have hlength : bs.length = 6 := by
      simpa [hsix] using congrArg List.length hbs
    obtain ⟨a, rfl⟩ := exists_octets hlength
    exact ⟨a, splitOn_eq_octets_iff.1 hbs.symm⟩
  · rintro ⟨a, ha⟩
    have hparts := splitOn_eq_octets_iff.2 ha
    constructor
    · simpa [octets] using congrArg List.length hparts
    · intro part hpart
      have hupper := hparts ▸ List.mem_map_of_mem (f := List.map Char.toUpper) hpart
      obtain ⟨b, -, hb⟩ := List.mem_map.1 hupper
      exact (pair_iff part).2 ⟨b, hb⟩

theorem parse_eq_none_iff (s : String) : parse? s = none ↔ ¬ Spelled s := by
  rw [spelled_iff, Option.eq_none_iff_forall_ne_some, not_exists]
  exact forall_congr' fun a => not_congr parse_eq_some_iff

theorem parse_eq_ok_iff {s : String} {a : Address} : parse s = .ok a ↔ parse? s = some a := by
  rw [parse]
  cases parse? s <;> simp

theorem text_eq_toUpper_iff {s : String} {a : Address} :
    a.text = s.toUpper ↔ parse? s = some a := by
  rw [parse_eq_some_iff, ← String.toList_inj, text, String.toList_ofList, String.toUpper,
    String.toList_map, eq_comm]

theorem text_injective {a b : Address} (h : a.text = b.text) : a = b :=
  Option.some.inj (by rw [← parse_text a, ← parse_text b, h])

theorem exists_parse_iff (s : String) : (∃ a, parse s = .ok a) ↔ Spelled s := by
  rw [spelled_iff]
  exact exists_congr fun a => parse_eq_ok_iff.trans parse_eq_some_iff

theorem parse_of_not_spelled {s : String} (h : ¬ Spelled s) :
    parse s = .error (.invalidAddress s) := by
  rw [parse, (parse_eq_none_iff s).2 h]

/-- Texts are read as addresses exactly if they are spelled out, and what such an address is written
as is the text in upper case; an address reads back from what it is written as. All other texts are
quoted by the error, whichever way they come, and stand for no address in a device file. -/
theorem reading_texts :
    (∀ a : Address, parse a.text = .ok a) ∧
    (∀ s, (∃ a, parse s = .ok a) ↔ Spelled s) ∧
    (∀ s a, parse s = .ok a → a.text = s.toUpper) ∧
    (∀ s s', Spelled s → Spelled s' → (parse s = parse s' ↔ s.toUpper = s'.toUpper)) ∧
    ∀ s, ¬ Spelled s →
      parse s = .error (.invalidAddress s) ∧
      parseOptional (some s) = .error (.invalidAddress s) ∧
      ∀ whole, DeviceFile.address? (.text whole s.toList) = none := by
  have hupper : ∀ s a, parse s = .ok a → a.text = s.toUpper := fun s a h =>
    text_eq_toUpper_iff.2 (parse_eq_ok_iff.1 h)
  refine ⟨fun a => parse_eq_ok_iff.2 (parse_text a), exists_parse_iff, hupper, ?_, ?_⟩
  · intro s s' hs hs'
    obtain ⟨a, ha⟩ := (exists_parse_iff s).2 hs
    obtain ⟨b, hb⟩ := (exists_parse_iff s').2 hs'
    rw [ha, hb, ← hupper s a ha, ← hupper s' b hb]
    exact ⟨fun h => by cases h; rfl, fun h => congrArg _ (text_injective h)⟩
  · intro s hs
    refine ⟨parse_of_not_spelled hs, ?_, fun whole => ?_⟩
    · rw [parseOptional, parse_of_not_spelled hs]
      rfl
    · change parse? (String.ofList s.toList) = none
      rw [String.ofList_toList, parse_eq_none_iff]
      exact hs

/-- Two spellings of one address, and a text of as many bytes that is none. -/
theorem reading_texts_in_both_cases :
    Spelled "aa:bb:cc:0d:0E:ff" ∧ Spelled "Aa:bB:CC:0D:0e:FF" ∧
      parse "aa:bb:cc:0d:0E:ff" = parse "Aa:bB:CC:0D:0e:FF" ∧
      (∃ a, parse "aa:bb:cc:0d:0E:ff" = .ok a) ∧
      ¬ Spelled "é:bb:cc:0d:0E:ff" ∧
      parse "é:bb:cc:0d:0E:ff" = .error (.invalidAddress "é:bb:cc:0d:0E:ff") := by
  have hs : Spelled "aa:bb:cc:0d:0E:ff" := by decide
  have hs' : Spelled "Aa:bB:CC:0D:0e:FF" := by decide
  have hbad : ¬ Spelled "é:bb:cc:0d:0E:ff" := by decide
  obtain ⟨-, hread, -, hsame, hrejected⟩ := reading_texts
  have hupper : "aa:bb:cc:0d:0E:ff".toUpper = "Aa:bB:CC:0D:0e:FF".toUpper :=
    String.toList_inj.1 (by simp only [String.toUpper, String.toList_map]; decide)
  exact ⟨hs, hs', (hsame _ _ hs hs').2 hupper, (hread _).2 hs, hbad, (hrejected _ hbad).1⟩

end Address

end VehicleLink
