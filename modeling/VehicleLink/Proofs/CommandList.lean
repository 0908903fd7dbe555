import VehicleLink.Probe.Settings
import Mathlib.Data.List.Basic
import Mathlib.Data.List.TakeWhile

/-!
# Commands in the environment

A variable holds a list of commands with semicolons between them; white space around them and empty
slots do not count (`Slot`). Cut at the semicolons and trimmed, the text gives the list back
(`commands?_joined`).

The text is only cut if it is one: a value that reads as a switch or a number is none
(`guess_eq_text_iff`), and no list of commands. That happens to a single command that stands alone,
and to no other list, since no switch or number holds a semicolon or white space
(`isPlain_of_isScalar`).
-/

namespace VehicleLink

/-! ## White space and separators -/

namespace Text

theorem dropWhile_before {p : Char → Bool} {before rest : List Char}
    (hbefore : ∀ c ∈ before, p c = true) (hrest : ∀ c ∈ rest.head?, p c = false) :
    (before ++ rest).dropWhile p = rest := by
  rw [List.dropWhile_append_of_pos hbefore]
  cases rest with
  | nil => rfl
  | cons c rest => exact List.dropWhile_cons_of_neg (by simp [hrest c rfl])

/-- White space around a text that neither begins nor ends with any is what trimming takes away. -/
theorem trim_padded {before core after : List Char} (hbefore : ∀ c ∈ before, isBlank c = true)
    (hafter : ∀ c ∈ after, isBlank c = true) (hhead : ∀ c ∈ core.head?, isBlank c = false)
    (hlast : ∀ c ∈ core.getLast?, isBlank c = false) :
    trim (before ++ core ++ after) = core := by
  unfold trim
  cases core with
  | nil =>
    have hall : ∀ c ∈ before ++ [] ++ after, isBlank c = true := by
      simpa [or_imp, forall_and] using ⟨hbefore, hafter⟩
    have hnone : (before ++ [] ++ after).dropWhile isBlank = [] := List.dropWhile_eq_nil_iff.2 hall
    rw [hnone]
    rfl
  | cons c core =>
    rw [List.append_assoc, dropWhile_before hbefore (by simpa using hhead), List.reverse_append,
      dropWhile_before (by simpa using hafter), List.reverse_reverse]
    rw [List.head?_reverse]
    exact hlast

/-- A character that is neither a semicolon nor white space. -/
def isPlain (c : Char) : Bool := c != ';' && !isBlank c

/-- Of the printable ASCII characters only the semicolon is not plain. -/
theorem isPlain_of_printable {c : Char} (hlow : 33 ≤ c.toNat) (hhigh : c.toNat ≤ 126)
    (hc : c ≠ ';') : isPlain c = true := by
  have hblank : isBlank c = false := by
    simp only [isBlank, Bool.or_eq_false_iff, Bool.and_eq_false_imp, decide_eq_true_eq,
      decide_eq_false_iff_not, beq_eq_false_iff_ne]
    omega
  simp [isPlain, hc, hblank]

theorem isPlain_of_isDigit {c : Char} (h : Decimal.isDigit c = true) : isPlain c = true := by
  have hrange : 48 ≤ c.toNat ∧ c.toNat ≤ 57 := by simpa [Decimal.isDigit] using h
  refine isPlain_of_printable (by omega) (by omega) ?_
  rintro rfl
  cases h

/-- Only letters have a lower case of their own. -/
theorem isPlain_of_toLower {c : Char} (h : isPlain c.toLower = true) : isPlain c = true := by
  by_cases hupper : 'A'.val ≤ c.val ∧ c.val ≤ 'Z'.val
  · have hrange : 65 ≤ c.toNat ∧ c.toNat ≤ 90 := hupper
    refine isPlain_of_printable (by omega) (by omega) ?_
    rintro rfl
    simp at hrange
  · have hsame : c.toLower = c := by
      unfold Char.toLower
      rw [dif_neg]
      simpa using hupper
    rwa [hsame] at h

end Text

/-! ## Switches and numbers -/

namespace Decimal

open Text

/-- A text of plain characters. -/
def Plain (s : List Char) : Prop := ∀ c ∈ s, isPlain c = true

theorem Plain.cons {c : Char} {s : List Char} (hc : isPlain c = true) (hs : Plain s) :
    Plain (c :: s) := List.forall_mem_cons.2 ⟨hc, hs⟩

theorem Plain.append {s t : List Char} (hs : Plain s) (ht : Plain t) : Plain (s ++ t) :=
  List.forall_mem_append.2 ⟨hs, ht⟩

theorem plain_of_lower {s : List Char} (h : Plain (lower s)) : Plain s := fun _ hc =>
  isPlain_of_toLower (h _ (List.mem_map_of_mem hc))

/-- A name that is plain is so in any case. -/
theorem plain_of_name {s : List Char} {name : String} (h : String.ofList (lower s) = name)
    (hname : name.toList.all isPlain = true) : Plain s := by
  refine plain_of_lower ?_
  rw [← h, String.toList_ofList] at hname
  exact List.all_eq_true.1 hname

theorem plain_of_digits {s : List Char} (h : s.all isDigit = true) : Plain s := fun c hc =>
  isPlain_of_isDigit (List.all_eq_true.1 h c hc)

theorem plain_takeWhile (s : List Char) : Plain (s.takeWhile isDigit) :=
  plain_of_digits List.all_takeWhile

theorem plain_of_sign {s : List Char} (h : Plain (sign s).2) : Plain s := by
  unfold sign at h
  split at h
  · exact .cons rfl h
  · exact .cons rfl h
  · exact h

theorem plain_of_natural? {s : List Char} (h : (natural? s).isSome = true) : Plain s := by
  unfold natural? at h
  split at h
  · rename_i hs
    exact plain_of_digits hs.2
  · cases h

theorem plain_of_int64? {s : List Char} (h : (int64? s).isSome = true) : Plain s := by
  refine plain_of_sign (plain_of_natural? ?_)
  obtain ⟨n, hn⟩ := Option.isSome_iff_exists.1 h
  obtain ⟨m, hm, -⟩ := Option.bind_eq_some_iff.1 hn
  exact Option.isSome_iff_exists.2 ⟨m, hm⟩

theorem plain_of_exponent? {s : List Char} (h : (exponent? s).isSome = true) : Plain s := by
  unfold exponent? at h
  split at h
  · exact nofun
  · rename_i c rest
    split at h
    · rename_i hc
      have hletter : isPlain c = true := by rcases hc with rfl | rfl <;> rfl
      have hdigits : (natural? (sign rest).2).isSome = true := by
        cases hd : natural? (sign rest).2 with
        | none => simp [hd] at h
        | some n => rfl
      exact .cons hletter (plain_of_sign (plain_of_natural? hdigits))
    · cases h

/-- The digits, the point and the exponent of a decimal are plain. -/
theorem plain_of_unsigned? {negative : Bool} {s : List Char}
    (h : (unsigned? negative s).isSome = true) : Plain s := by
  have hexponent : Plain (s.dropWhile isDigit) := by
    unfold unsigned? at h
    dsimp only at h
    split at h
    · rename_i rest hrest
      have hbehind : (exponent? (rest.dropWhile isDigit)).isSome = true := by
        split at h
        · cases h
        · exact Option.isSome_map.symm.trans h
      rw [hrest, ← List.takeWhile_append_dropWhile (p := isDigit) (l := rest)]
      exact .cons rfl ((plain_takeWhile rest).append (plain_of_exponent? hbehind))
    · split at h
      · cases h
      · exact plain_of_exponent? (Option.isSome_map.symm.trans h)
  rw [← List.takeWhile_append_dropWhile (p := isDigit) (l := s)]
  exact (plain_takeWhile s).append hexponent

theorem plain_of_float? {s : List Char} (h : (float? s).isSome = true) : Plain s := by
  refine plain_of_sign ?_
  unfold float? at h
  dsimp only at h
  split at h
  · rename_i hinf
    exact hinf.elim (plain_of_name · (by decide)) (plain_of_name · (by decide))
  · split at h
    · rename_i hnan
      exact plain_of_name hnan (by decide)
    · exact plain_of_unsigned? h

end Decimal

namespace Config.Environment

/-- A text that reads as a switch, a whole number or a floating-point number. -/
def isScalar (s : String) : Bool :=
  let word := String.ofList (Decimal.lower s.toList)
  word = "true" || word = "false" || (Decimal.int64? s.toList).isSome ||
    (Decimal.float? s.toList).isSome

/-- What a text is read as: as it is, or as a switch or a number. -/
inductive Guessed (s : String) : Value → Prop
  | text (h : isScalar s = false) : Guessed s (.text s)
  | bool (h : isScalar s = true) (b : Bool) : Guessed s (.bool b)
  | int (h : isScalar s = true) (n : Int) : Guessed s (.int n)
  | float (h : isScalar s = true) (x : Binary64) : Guessed s (.float x)

theorem guessed_guess (s : String) : Guessed s (guess s) := by
  unfold guess
  dsimp only
  split
  · rename_i htrue
    exact .bool (by simp [isScalar, htrue]) true
  · rename_i htrue
    split
    · rename_i hfalse
      exact .bool (by simp [isScalar, hfalse]) false
    · rename_i hfalse
      split
      · rename_i n hint
        exact .int (by simp [isScalar, hint]) n
      · rename_i hint
        split
        · rename_i x hfloat
          exact .float (by simp [isScalar, hfloat]) x
        · rename_i hfloat
          exact .text (by simp [isScalar, htrue, hfalse, hint, hfloat])

/-- What reads as a switch or a number is no list of commands. -/
theorem commands?_guess (s : String) :
    Probe.commands? (guess s) = if isScalar s then none else Probe.commands? (.text s) := by
  have hguess := guessed_guess s
  generalize guess s = v at hguess ⊢
  cases hguess with
  | text h => rw [h]; rfl
  | bool h b => rw [h]; rfl
  | int h n => rw [h]; rfl
  | float h x => rw [h]; rfl

theorem guess_ne_table (s : String) (entries : List (String × Value)) :
    guess s ≠ .table entries := by
  have hguess := guessed_guess s
  generalize guess s = v at hguess
  cases hguess <;> exact nofun

/-- Variables that are for other programs set nothing. -/
theorem settings_of_others {environment : List (String × String)}
    (h : ∀ v ∈ environment, setting? v.1 = none) : settings environment = [] := by
  refine List.filterMap_eq_nil_iff.2 fun v hv => ?_
  simp [h v hv]

theorem settings_of_one {before after : List (String × String)} {name setting : String}
    (h : ∀ v ∈ before ++ after, setting? v.1 = none) (hname : setting? name = some setting)
    (s : String) : settings (before ++ (name, s) :: after) = [(setting, guess s)] := by
  obtain ⟨hbefore, hafter⟩ := List.forall_mem_append.1 h
  have hset : settings (before ++ (name, s) :: after) =
      settings before ++ (setting, guess s) :: settings after := by
    simp [settings, hname]
  rw [hset, settings_of_others hbefore, settings_of_others hafter]
  rfl

theorem isPlain_of_isScalar {s : String} (h : isScalar s = true) : Decimal.Plain s.toList := by
  simp only [isScalar, Bool.or_eq_true, decide_eq_true_eq] at h
  rcases h with ((htrue | hfalse) | hint) | hfloat
  · exact Decimal.plain_of_name htrue (by decide)
  · exact Decimal.plain_of_name hfalse (by decide)
  · exact Decimal.plain_of_int64? hint
  · exact Decimal.plain_of_float? hfloat

end Config.Environment

/-! ## Lists of commands -/

namespace Probe

open Text Config

/-- A command that can stand in a list: it is not empty, holds no semicolon, and neither begins nor
ends with white space. -/
structure IsCommand (c : String) : Prop where
  nonempty : c ≠ ""
  whole : ';' ∉ c.toList
  begins : ∀ x ∈ c.toList.head?, isBlank x = false
  ends : ∀ x ∈ c.toList.getLast?, isBlank x = false

instance (c : String) : Decidable (IsCommand c) :=
  decidable_of_iff (c ≠ "" ∧ ';' ∉ c.toList ∧ c.toList.head?.all (fun x => !isBlank x) = true ∧
      c.toList.getLast?.all (fun x => !isBlank x) = true) <| by
    simp only [Option.all_eq_true, Bool.not_eq_true']
    exact ⟨fun h => ⟨h.1, h.2.1, h.2.2.1, h.2.2.2⟩,
      fun h => ⟨h.nonempty, h.whole, h.begins, h.ends⟩⟩

/-- A place between semicolons: a command or nothing, with white space around it. -/
structure Slot where
  before : List Char := []
  command : Option String
  after : List Char := []

namespace Slot

/-- The characters of the command. -/
def core (p : Slot) : List Char := (p.command.map String.toList).getD []

def text (p : Slot) : List Char := p.before ++ p.core ++ p.after

structure Valid (p : Slot) : Prop where
  before : ∀ x ∈ p.before, isBlank x = true
  after : ∀ x ∈ p.after, isBlank x = true
  command : ∀ c ∈ p.command, IsCommand c

instance (p : Slot) : Decidable p.Valid :=
  decidable_of_iff (p.before.all isBlank = true ∧ p.after.all isBlank = true ∧
      ∀ c ∈ p.command, IsCommand c) <| by
    simp only [List.all_eq_true]
    exact ⟨fun h => ⟨h.1, h.2.1, h.2.2⟩, fun h => ⟨h.before, h.after, h.command⟩⟩

variable {p : Slot}

/-- A command that stands alone. -/
def alone (c : String) : Slot := { command := some c }

theorem Valid.core_cases (h : p.Valid) : p.core = [] ∨ ∃ c, IsCommand c ∧ p.core = c.toList := by
  cases hc : p.command with
  | none => exact .inl (by simp [core, hc])
  | some c => exact .inr ⟨c, h.command c hc, by simp [core, hc]⟩

theorem Valid.trim_text (h : p.Valid) : trim p.text = p.core := by
  rcases h.core_cases with hnone | ⟨c, hc, hcore⟩
  · exact trim_padded h.before h.after (by simp [hnone]) (by simp [hnone])
  · exact trim_padded h.before h.after (hcore ▸ hc.begins) (hcore ▸ hc.ends)

theorem Valid.not_mem_text (h : p.Valid) : ';' ∉ p.text := by
  have hblank {l : List Char} (hl : ∀ x ∈ l, isBlank x = true) : ';' ∉ l := fun hmem => by
    cases hl _ hmem
  have hcore : ';' ∉ p.core := by
    rcases h.core_cases with hnone | ⟨c, hc, hcore⟩
    · simp [hnone]
    · exact hcore ▸ hc.whole
  simp [text, hblank h.before, hblank h.after, hcore]

/-- A slot is read as the command in it, or as nothing. -/
theorem Valid.read (h : p.Valid) :
    (if p.core.isEmpty then [] else [String.ofList p.core]) = p.command.toList := by
  cases hc : p.command with
  | none => simp [core, hc]
  | some c =>
    have hne : c.toList ≠ [] := fun hnil =>
      (h.command c hc).nonempty (String.toList_eq_nil_iff.1 hnil)
    simp [core, hc, hne]

/-- A slot of plain characters holds no white space. -/
theorem Valid.eq_alone (h : p.Valid) (hplain : Decimal.Plain p.text) (hne : p.text ≠ []) :
    ∃ c, p = alone c := by
  have hnone {l : List Char} (hl : ∀ x ∈ l, isBlank x = true) (hmem : ∀ x ∈ l, x ∈ p.text) :
      l = [] := by
    refine List.eq_nil_iff_forall_not_mem.2 fun x hx => ?_
    have hx' := hplain x (hmem x hx)
    simp [isPlain, hl x hx] at hx'
  obtain ⟨before, command, after⟩ := p
  obtain rfl : before = [] := hnone h.before fun x hx => by simp [text, hx]
  obtain rfl : after = [] := hnone h.after fun x hx => by simp [text, hx]
  cases command with
  | none => exact absurd rfl hne
  | some c => exact ⟨c, rfl⟩

end Slot

/-- Slots with semicolons between them. -/
def joined (ps : List Slot) : String := String.ofList ([';'].intercalate (ps.map Slot.text))

/-- The commands in slots, in order. -/
def commandsIn (ps : List Slot) : List String := ps.filterMap Slot.command

variable {ps : List Slot}

theorem splitOn_joined (h : ∀ p ∈ ps, p.Valid) (hne : ps ≠ []) :
    (joined ps).toList.splitOn ';' = ps.map Slot.text := by
  rw [joined, String.toList_ofList]
  refine List.splitOn_intercalate ';' (fun l hl => ?_) (by simpa using hne)
  obtain ⟨p, hp, rfl⟩ := List.mem_map.1 hl
  exact (h p hp).not_mem_text

theorem commands?_joined (h : ∀ p ∈ ps, p.Valid) :
    commands? (.text (joined ps)) = some (commandsIn ps) := by
  by_cases hne : ps = []
  · subst hne
    decide
  · have hpieces : ((ps.map Slot.text).map trim) = ps.map Slot.core := by
      rw [List.map_map]
      exact List.map_congr_left fun p hp => (h p hp).trim_text
    have hread : ((ps.map Slot.core).filter fun piece => !piece.isEmpty).map String.ofList =
        ps.flatMap fun p => p.command.toList := by
      clear hne hpieces
      induction ps with
      | nil => rfl
      | cons p ps ih =>
        obtain ⟨hp, hps⟩ := List.forall_mem_cons.1 h
        rw [List.flatMap_cons, ← hp.read, ← ih hps, List.map_cons, List.filter_cons]
        cases p.core.isEmpty <;> rfl
    rw [commands?, splitOn_joined h hne, hpieces, hread, commandsIn, List.filterMap_eq_flatMap_toList]

/-- Slots whose text reads as a switch or a number: a single command, alone. -/
def Misread (ps : List Slot) : Prop :=
  ∃ c, ps = [.alone c] ∧ Environment.isScalar c = true

theorem isScalar_empty : Environment.isScalar "" = false := by decide

theorem joined_alone (c : String) : joined [.alone c] = c := by
  simp [joined, Slot.text, Slot.core, Slot.alone]

theorem isScalar_joined_iff (h : ∀ p ∈ ps, p.Valid) :
    Environment.isScalar (joined ps) = true ↔ Misread ps := by
  constructor
  · intro hscalar
    have hplain : Decimal.Plain (joined ps).toList := Environment.isPlain_of_isScalar hscalar
    have hne : joined ps ≠ "" := by
      intro hempty
      rw [hempty, isScalar_empty] at hscalar
      cases hscalar
    cases ps with
    | nil => exact absurd rfl hne
    | cons p rest =>
      cases rest with
      | nil =>
        have hone : joined [p] = String.ofList p.text := by simp [joined]
        rw [hone, String.toList_ofList] at hplain
        have htext : p.text ≠ [] := by
          intro hnil
          rw [hone, hnil] at hne
          exact hne rfl
        obtain ⟨c, rfl⟩ := (h p (List.mem_singleton_self p)).eq_alone hplain htext
        rw [joined_alone] at hscalar
        exact ⟨c, rfl, hscalar⟩
      | cons q rest =>
        -- between two slots there is a semicolon
        have hmem : ';' ∈ (joined (p :: q :: rest)).toList := by
          rw [joined, String.toList_ofList, List.map_cons, List.map_cons,
            List.intercalate_cons_cons]
          simp
        exact absurd (hplain _ hmem) (by decide)
  · rintro ⟨c, rfl, hscalar⟩
    rwa [joined_alone]

/-! ## Settings from the environment -/

theorem field_insert_of_ne {β : Type} {name other : String} (h : other ≠ name) (v : Value)
    (t : Table) (read : Value → Option β) :
    field (Named.insert name v t) other read = field t other read := by
  rw [field, field, Named.get?_insert, if_neg h]

/-- Beside the commands all settings are as before. -/
theorem ofTable_commands (v : Value) :
    ∃ d, ofTable defaults = .ok d ∧
      ofTable (Named.insert "commands" v defaults) =
        match commands? v with
        | some commands => .ok { d with commands }
        | none => .error (.invalid "commands") := by
  refine ⟨_, rfl, ?_⟩
  have hfield : field (Named.insert "commands" v defaults) "commands" commands? =
      match commands? v with
      | some commands => .ok commands
      | none => .error (.invalid "commands") := by
    rw [field, Named.get?_insert, if_pos rfl, Option.getD_some]
    cases commands? v <;> rfl
  unfold ofTable
  rw [hfield]
  simp only [field_insert_of_ne, ne_eq, String.reduceEq, not_false_eq_true]
  cases commands? v <;> rfl

theorem setAll_commands {v : Value} (h : ∀ entries, v ≠ .table entries) :
    Table.setAll (Table.setAll [("commands", v)] (Table.setAll [] [])) defaults =
      Named.insert "commands" v defaults := by
  cases v with
  | table entries => exact absurd rfl (h entries)
  | _ => rfl

theorem load_eq (around : Surroundings) :
    load none around =
      ofTable (Table.setAll (Table.setAll (Environment.settings around.environment)
        (Table.setAll [] [])) defaults) := rfl

/-- The settings where one variable holds commands: those without it, with the commands in it, unless
its text reads as a switch or a number. -/
theorem load_joined (h : ∀ p ∈ ps, p.Valid) {before after : List (String × String)}
    (hothers : ∀ v ∈ before ++ after, Environment.setting? v.1 = none) (around : Surroundings) :
    ∃ d, load none { around with environment := before ++ after } = .ok d ∧
      load none { around with
          environment := before ++ ("OPENXC_BLE_COMMANDS", joined ps) :: after } =
        if Environment.isScalar (joined ps) then .error (.invalid "commands")
        else .ok { d with commands := commandsIn ps } := by
  obtain ⟨d, hd, hcommands⟩ := ofTable_commands (Environment.guess (joined ps))
  have hname : Environment.setting? "OPENXC_BLE_COMMANDS" = some "commands" := by decide
  refine ⟨d, ?_, ?_⟩
  · rw [load_eq, Environment.settings_of_others hothers]
    exact hd
  · rw [load_eq, Environment.settings_of_one hothers hname,
      setAll_commands (Environment.guess_ne_table _), hcommands, Environment.commands?_guess,
      commands?_joined h]
    cases Environment.isScalar (joined ps) <;> rfl

/-- Any list of commands, written into the variable for them with semicolons between them, white
space around them and empty slots as one likes, among variables of other programs and without a
settings file. It gives the settings without the variable but with exactly these commands, unless it
is a single command that stands alone and reads as a switch or a number; then there are no
settings. -/
theorem commands_survive_iff (h : ∀ p ∈ ps, p.Valid) {before after : List (String × String)}
    (hothers : ∀ v ∈ before ++ after, Environment.setting? v.1 = none) (around : Surroundings) :
    ∃ d, load none { around with environment := before ++ after } = .ok d ∧
      let loaded := load none
        { around with environment := before ++ ("OPENXC_BLE_COMMANDS", joined ps) :: after }
      (loaded = .ok { d with commands := commandsIn ps } ↔ ¬ Misread ps) ∧
      (Misread ps → loaded = .error (.invalid "commands")) := by
  obtain ⟨d, hd, hloaded⟩ := load_joined h hothers around
  refine ⟨d, hd, ?_⟩
  rw [hloaded, ← isScalar_joined_iff h]
  cases Environment.isScalar (joined ps) with
  | true => exact ⟨iff_of_false nofun (by simp), fun _ => rfl⟩
  | false => exact ⟨iff_of_true rfl (by simp), nofun⟩

/-- A number and a switch in one list, and a number with a space before it, are commands. -/
theorem commands_survive_together :
    let ps : List Slot :=
      [{ before := [' '], command := some "42" }, { command := none, after := ['\t'] },
        { command := some "true", after := [' '] }]
    let alone : List Slot := [{ before := [' '], command := some "42" }]
    (∀ p ∈ ps, p.Valid) ∧ joined ps = " 42;\t;true " ∧ joined alone = " 42" ∧
      (∃ d, load none { environment := [("PATH", "/bin")] } = .ok d ∧
        load none { environment := [("PATH", "/bin"), ("OPENXC_BLE_COMMANDS", joined ps)] } =
          .ok { d with commands := ["42", "true"] }) ∧
      ∃ d, load none { environment := [("PATH", "/bin")] } = .ok d ∧
        load none { environment := [("PATH", "/bin"), ("OPENXC_BLE_COMMANDS", joined alone)] } =
          .ok { d with commands := ["42"] } := by
  intro ps alone
  have hps : ∀ p ∈ ps, p.Valid := by decide
  have halone : ∀ p ∈ alone, p.Valid := by decide
  have hothers : ∀ v ∈ [("PATH", "/bin")] ++ [], Environment.setting? v.1 = none := by decide
  have hread {qs : List Slot} (hqs : Environment.isScalar (joined qs) = false)
      (hvalid : ∀ p ∈ qs, p.Valid) : ¬ Misread qs := by
    rw [← isScalar_joined_iff hvalid, hqs]
    exact Bool.false_ne_true
  obtain ⟨d, hd, hiff, -⟩ := commands_survive_iff hps hothers {}
  obtain ⟨e, he, hiff', -⟩ := commands_survive_iff halone hothers {}
  exact ⟨hps, by decide, by decide, ⟨d, hd, hiff.2 (hread (by decide) hps)⟩,
    e, he, hiff'.2 (hread (by decide) halone)⟩

/-- The command `42` alone is taken for a number, which is no list of commands. -/
theorem command_taken_for_number :
    IsCommand "42" ∧ joined [.alone "42"] = "42" ∧
      load none { environment := [("OPENXC_BLE_COMMANDS", "42")] } =
        .error (.invalid "commands") :=
  ⟨by decide, by decide, rfl⟩

end Probe

end VehicleLink
