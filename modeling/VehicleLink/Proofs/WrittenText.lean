import VehicleLink.Text.Utf8
import VehicleLink.Address

/-!
# Texts read back

What is written as UTF-8 reads back as the same characters (`Utf8.decode_encode`), and what an
address is written as reads back as the same address (`Address.parse_text`).
-/

namespace VehicleLink

/-! ## UTF-8 -/

namespace Utf8

theorem decodeFrom_char {state : Option Pending} {b : UInt8} {c : Char}
    (h : step state b = .char c) (rest : List UInt8) :
    decodeFrom state (b :: rest) = (decodeFrom none rest).map (c :: ·) := by
  cases state <;> simp [decodeFrom, h]

theorem decodeFrom_more {state : Option Pending} {b : UInt8} {p : Pending}
    (h : step state b = .more p) (rest : List UInt8) :
    decodeFrom state (b :: rest) = decodeFrom (some p) rest := by
  cases state <;> simp [decodeFrom, h]

/-- The last byte of a character. -/
theorem step_last {p : Pending} {n : Nat} (hm : p.missing = 1) (hn : n < 256) (hl : p.low ≤ n)
    (hh : n ≤ p.high) :
    step (some p) (UInt8.ofNat n) = .char (Char.ofNat (p.value * 64 + (n - 0x80))) := by
  simp [step, Nat.mod_eq_of_lt hn, hm, hl, hh]

/-- A byte inside a character. -/
theorem step_inner {p : Pending} {n : Nat} (hm : 1 < p.missing) (hn : n < 256) (hl : p.low ≤ n)
    (hh : n ≤ p.high) :
    step (some p) (UInt8.ofNat n) =
      .more ⟨p.value * 64 + (n - 0x80), p.missing - 1, 0x80, 0xBF⟩ := by
  simp [step, Nat.mod_eq_of_lt hn, hl, hh, Nat.not_le.2 hm]

theorem step_none {n : Nat} (hn : n < 256) : step none (UInt8.ofNat n) = lead n := by
  simp [step, Nat.mod_eq_of_lt hn]

/-- A scalar value is no surrogate and no more than the last code point. -/
theorem scalar_bounds (c : Char) : c.toNat < 0xD800 ∨ 0xDFFF < c.toNat ∧ c.toNat < 0x110000 :=
  c.valid

/-- The first byte of three: what it leaves open has room for the second byte. -/
theorem lead_three {n : Nat} (hn : 0x800 ≤ n) (hb : n < 0x10000)
    (hs : n < 0xD800 ∨ 0xDFFF < n) :
    ∃ p, lead (0xE0 + n / 4096) = .more p ∧ p.value = n / 4096 ∧ p.missing = 2 ∧
      p.low ≤ 0x80 + n / 64 % 64 ∧ 0x80 + n / 64 % 64 ≤ p.high := by
  -- The first byte limits the second at both ends of the range: no overlong form, no surrogate.
  rcases Nat.lt_or_ge n 0x1000 with h0 | h0
  · have hz : n / 4096 = 0 := by omega
    exact ⟨⟨0, 2, 0xA0, 0xBF⟩, by simp [lead, hz], by simp [hz], rfl, by dsimp; omega,
      by dsimp; omega⟩
  by_cases hd : n / 4096 = 13
  · exact ⟨⟨0xD, 2, 0x80, 0x9F⟩, by simp [lead, hd], by simp [hd], rfl, by dsimp; omega,
      by dsimp; omega⟩
  · refine ⟨⟨n / 4096, 2, 0x80, 0xBF⟩, ?_, rfl, rfl, by dsimp; omega, by dsimp; omega⟩
    rw [lead, if_neg (by omega), if_neg (by omega), if_neg (by omega), if_neg (by omega),
      if_neg (by omega), if_pos (by omega), Nat.add_sub_cancel_left]

/-- The first byte of four. -/
theorem lead_four {n : Nat} (hn : 0x10000 ≤ n) (hb : n < 0x110000) :
    ∃ p, lead (0xF0 + n / 262144) = .more p ∧ p.value = n / 262144 ∧ p.missing = 3 ∧
      p.low ≤ 0x80 + n / 4096 % 64 ∧ 0x80 + n / 4096 % 64 ≤ p.high := by
  rcases Nat.lt_or_ge n 0x40000 with h0 | h0
  · have hz : n / 262144 = 0 := by omega
    exact ⟨⟨0, 3, 0x90, 0xBF⟩, by simp [lead, hz], by simp [hz], rfl, by dsimp; omega,
      by dsimp; omega⟩
  by_cases hd : n / 262144 = 4
  · exact ⟨⟨4, 3, 0x80, 0x8F⟩, by simp [lead, hd], by simp [hd], rfl, by dsimp; omega,
      by dsimp; omega⟩
  · refine ⟨⟨n / 262144, 3, 0x80, 0xBF⟩, ?_, rfl, rfl, by dsimp; omega, by dsimp; omega⟩
    rw [lead, if_neg (by omega), if_neg (by omega), if_neg (by omega), if_neg (by omega),
      if_neg (by omega), if_neg (by omega), if_neg (by omega), if_pos (by omega),
      Nat.add_sub_cancel_left]

/-- The first byte of two. -/
theorem lead_two {n : Nat} (hn : 0x80 ≤ n) (hb : n < 0x800) :
    lead (0xC0 + n / 64) = .more ⟨n / 64, 1, 0x80, 0xBF⟩ := by
  rw [lead, if_neg (by omega), if_neg (by omega), if_pos (by omega), Nat.add_sub_cancel_left]

/-- The last byte of a character with `n` as its value, of which the bits above the last six have
been read. -/
theorem step_final {p : Pending} {c : Char} (hv : p.value = c.toNat / 64) (hm : p.missing = 1)
    (hl : p.low = 0x80) (hh : p.high = 0xBF) :
    step (some p) (UInt8.ofNat (0x80 + c.toNat % 64)) = .char c := by
  rw [step_last hm (by omega) (by omega) (by omega)]
  have hval : p.value * 64 + (0x80 + c.toNat % 64 - 0x80) = c.toNat := by omega
  rw [hval, Char.ofNat_toNat]

/-- The bytes of one character read back as it, whatever is behind them. -/
theorem decodeFrom_encodeChar (c : Char) (rest : List UInt8) :
    decodeFrom none (encodeChar c ++ rest) = (decodeFrom none rest).map (c :: ·) := by
  have hc := scalar_bounds c
  simp only [encodeChar]
  split
  · next h1 =>
    have hs : step none (UInt8.ofNat c.toNat) = .char c := by
      rw [step_none (by omega), lead, if_pos h1, Char.ofNat_toNat]
    exact decodeFrom_char hs rest
  split
  · next h1 h2 =>
    have hs := (step_none (by omega)).trans (lead_two (Nat.not_lt.1 h1) h2)
    exact (decodeFrom_more hs _).trans (decodeFrom_char (step_final rfl rfl rfl rfl) rest)
  split
  · next h1 h2 h3 =>
    obtain ⟨p, hp, hv, hm, hl, hh⟩ := lead_three (Nat.not_lt.1 h2) h3 (by omega)
    have hs := (step_none (by omega)).trans hp
    refine (decodeFrom_more hs _).trans ?_
    refine (decodeFrom_more (step_inner (by omega) (by omega) hl hh) _).trans ?_
    refine decodeFrom_char (step_final ?_ ?_ rfl rfl) rest
    · dsimp; omega
    · dsimp; omega
  · next h1 h2 h3 =>
    obtain ⟨p, hp, hv, hm, hl, hh⟩ := lead_four (Nat.not_lt.1 h3) (by omega)
    have hs := (step_none (by omega)).trans hp
    refine (decodeFrom_more hs _).trans ?_
    refine (decodeFrom_more (step_inner (by omega) (by omega) hl hh) _).trans ?_
    refine (decodeFrom_more (step_inner ?_ (by omega) ?_ ?_) _).trans ?_
    · dsimp; omega
    · dsimp; omega
    · dsimp; omega
    refine decodeFrom_char (step_final ?_ ?_ rfl rfl) rest
    · dsimp; omega
    · dsimp; omega

/-- The bytes of a text read back as it. -/
theorem decode_encode (s : List Char) : decode? (encode s) = some s := by
  induction s with
  | nil => rfl
  | cons c rest ih =>
    rw [decode?, encode, List.flatMap_cons, decodeFrom_encodeChar]
    exact congrArg (Option.map (c :: ·)) ih

theorem encode_inj {s t : List Char} : encode s = encode t ↔ s = t :=
  ⟨fun h => Option.some.inj (by rw [← decode_encode s, h, decode_encode]), congrArg _⟩

/-- Characters below 128 take one byte each. -/
theorem length_encode_of_ascii {s : List Char} (h : ∀ c ∈ s, c.toNat < 0x80) :
    (encode s).length = s.length := by
  induction s with
  | nil => rfl
  | cons c rest ih =>
    have hc : (encodeChar c).length = 1 := by simp [encodeChar, h c (.head _)]
    rw [encode, List.flatMap_cons, List.length_append, hc, List.length_cons, Nat.add_comm]
    exact congrArg (· + 1) (ih fun d hd => h d (.tail _ hd))

end Utf8

/-! ## Hexadecimal digits -/

namespace Hex

/-- A digit reads back as its value. -/
theorem value_upperDigit {n : Nat} (h : n < 16) : value? (upperDigit n) = some n := by
  have : ∀ m : Fin 16, value? (upperDigit m) = some m.1 := by decide
  exact this ⟨n, h⟩

theorem upperDigit_ascii {n : Nat} (h : n < 16) : (upperDigit n).toNat < 0x80 := by
  have : ∀ m : Fin 16, (upperDigit m).toNat < 0x80 := by decide
  exact this ⟨n, h⟩

theorem ofNat_digits (b : UInt8) : UInt8.ofNat (16 * (b.toNat / 16) + b.toNat % 16) = b := by
  rw [Nat.div_add_mod, UInt8.ofNat_toNat]

/-- The two digits of a byte read back as it. -/
theorem byte_upperDigits (b : UInt8) :
    byte? (upperDigit (b.toNat / 16)) (upperDigit (b.toNat % 16)) = some b := by
  have hb := b.toNat_lt
  rw [byte?, value_upperDigit (by omega), value_upperDigit (by omega)]
  exact congrArg some (ofNat_digits b)

theorem upperByte_ascii {b : UInt8} {c : Char} (h : c ∈ upperByte b) : c.toNat < 0x80 := by
  have hb := b.toNat_lt
  simp only [upperByte, List.mem_cons, List.not_mem_nil, or_false] at h
  rcases h with rfl | rfl
  · exact upperDigit_ascii (by omega)
  · exact upperDigit_ascii (by omega)

end Hex

/-! ## Addresses -/

namespace Address

/-- The octets of a written address read back. -/
theorem groups_chars (a : Address) : groups? 6 a.chars = some a.octets := by
  simp [chars, octets, Hex.upperByte, groups?, Hex.byte_upperDigits]

/-- What an address is written as reads back as it. -/
theorem parse_text (a : Address) : parse? a.text = some a := by
  rw [text, parse?, String.toList_ofList, groups_chars]
  rfl

theorem chars_ascii {a : Address} {c : Char} (h : c ∈ a.chars) : c.toNat < 0x80 := by
  simp only [chars, List.mem_append, List.mem_cons] at h
  rcases h with h | rfl | h | rfl | h | rfl | h | rfl | h | rfl | h
  all_goals first
    | exact Hex.upperByte_ascii h
    | decide

/-- A written address is seventeen bytes. -/
theorem length_encode_chars (a : Address) : (Utf8.encode a.chars).length = 17 :=
  Utf8.length_encode_of_ascii fun _ => chars_ascii

end Address

end VehicleLink
