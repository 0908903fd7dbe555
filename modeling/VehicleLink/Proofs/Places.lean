import VehicleLink.FileTree
import Mathlib.Data.List.Basic

/-!
# Places in a tree of files

What an operation on a tree does is told by what is at each place: a file with its bytes, a
directory, or nothing (`kind?`). A change at one place leaves every other as it is (`kind?_written`,
`kind?_removed`, `kind?_made`), and where steps lead depends on the directories alone
(`reach?_congr`).

Making the directories on a way turns missing places into directories and does nothing else
(`grows_makeAlong`). It does not even change what is at the end of the way, unless the way steps up
out of a directory that was missing (`found?_makeAlong`): what is made where nothing was is empty.
-/

namespace VehicleLink

/-- What a reader finds at a place: a file with its bytes, or a directory. -/
inductive Kind where
  | file (bytes : List UInt8)
  | directory
  deriving DecidableEq

def Node.kind : Node → Kind
  | .file bytes => .file bytes
  | .directory _ => .directory

namespace FileTree

/-! ## What is where -/

def kind? (q : Place) (t : FileTree) : Option Kind := (t.node? q).map Node.kind

/-- The bytes of the file at a place. -/
def file? (q : Place) (t : FileTree) : Option (List UInt8) :=
  match t.kind? q with
  | some (.file bytes) => some bytes
  | _ => none

/-- What is where names lead from something. -/
def under : Option Node → Place → Option Kind
  | some (.directory inner), rest => kind? rest inner
  | some (.file bytes), rest => if rest = [] then some (.file bytes) else none
  | none, _ => none

theorem under_nil (n : Option Node) : under n [] = n.map Node.kind := by
  rcases n with _ | _ | inner <;> rfl

variable {t t' t₁ : FileTree} {p q here next : Place} {bytes : List UInt8}

theorem kind?_nil (t : FileTree) : t.kind? [] = some .directory := rfl

theorem kind?_cons (name : String) (rest : Place) (t : FileTree) :
    t.kind? (name :: rest) = under (Named.get? name t) rest := by
  rw [kind?, node?]
  rcases Named.get? name t with _ | bytes | inner
  · rfl
  · by_cases h : rest = [] <;> simp [under, h, Node.kind]
  · rfl

theorem kind?_append (p rest : Place) (t : FileTree) :
    t.kind? (p ++ rest) = under (t.node? p) rest := by
  induction p generalizing t with
  | nil => rfl
  | cons name p ih =>
    rw [List.cons_append, kind?_cons, node?]
    rcases Named.get? name t with _ | bytes | inner
    · rfl
    · cases p <;> simp [under]
    · exact ih inner

/-- Below what is missing everything is missing. -/
theorem kind?_below_missing (h : t.kind? p = none) (rest : Place) : t.kind? (p ++ rest) = none := by
  have hnode : t.node? p = none := by simpa [kind?] using h
  rw [kind?_append, hnode, under]

/-! ## Changes at one place -/

/-- A change at a place that keeps what is below it keeps everything else. -/
theorem kind?_alter {f : Option Node → Except FileError (Option Node)}
    (hf : ∀ old new, f old = .ok new → ∀ rest, rest ≠ [] → under new rest = under old rest)
    (h : t.alter f p = .ok t') :
    ∃ new, f (t.node? p) = .ok new ∧
      ∀ q, t'.kind? q = if q = p then new.map Node.kind else t.kind? q := by
  induction p generalizing t t' with
  | nil => cases h
  | cons name p ih =>
    rw [alter] at h
    by_cases hp : p = []
    · -- The place is an entry of this directory.
      subst hp
      rw [if_pos rfl] at h
      have hnode : t.node? [name] = Named.get? name t := by
        rw [node?]
        rcases Named.get? name t with _ | _ | inner <;> rfl
      rcases hnew : f (Named.get? name t) with e | new <;> rw [hnew] at h <;> cases h
      refine ⟨new, hnode ▸ hnew, fun q => ?_⟩
      cases q with
      | nil => rfl
      | cons other rest =>
        rw [kind?_cons, kind?_cons, get?_assign]
        by_cases hother : other = name
        · subst hother
          by_cases hrest : rest = []
          · simp [hrest, under_nil]
          · simpa [hrest] using hf _ _ hnew rest hrest
        · simp [hother]
    · -- The place is further down.
      rw [if_neg hp] at h
      rcases hget : Named.get? name t with _ | _ | inner <;> rw [hget] at h
      · cases h
      · cases h
      · rcases hinner : alter f p inner with e | inner' <;> simp only [hinner] at h <;> cases h
        obtain ⟨new, hnew, hkinds⟩ := ih hinner
        refine ⟨new, by simpa [node?, hget] using hnew, fun q => ?_⟩
        cases q with
        | nil => rfl
        | cons other rest =>
          rw [kind?_cons, kind?_cons, Named.get?_insert]
          by_cases hother : other = name
          · subst hother
            simpa [hget, under] using hkinds rest
          · simp [hother]

theorem kind?_written (h : t.alter (written bytes) p = .ok t') :
    t.kind? p ≠ some .directory ∧
      ∀ q, t'.kind? q = if q = p then some (.file bytes) else t.kind? q := by
  obtain ⟨new, hnew, hkinds⟩ := kind?_alter (fun old new hnew rest hrest => by
    rcases old with _ | _ | inner <;> cases hnew <;> simp [under, hrest]) h
  rw [kind?]
  rcases hnode : t.node? p with _ | _ | inner <;> rw [hnode] at hnew <;> cases hnew
  · exact ⟨by simp, hkinds⟩
  · exact ⟨by simp [Node.kind], hkinds⟩

theorem kind?_removed (h : t.alter removed p = .ok t') :
    ∀ q, t'.kind? q = if q = p then none else t.kind? q := by
  obtain ⟨new, hnew, hkinds⟩ := kind?_alter (fun old new hnew rest hrest => by
    rcases old with _ | _ | inner <;> cases hnew
    simp [under, hrest]) h
  rcases hnode : t.node? p with _ | _ | inner <;> rw [hnode] at hnew <;> cases hnew
  exact hkinds

theorem kind?_made (h : t.alter made p = .ok t') :
    (t.kind? p = none ∨ t.kind? p = some .directory) ∧
      ∀ q, t'.kind? q = if q = p then some .directory else t.kind? q := by
  have hempty : ∀ rest : Place, rest ≠ [] → kind? rest [] = none := by
    intro rest hrest
    cases rest with
    | nil => exact absurd rfl hrest
    | cons name rest => rw [kind?_cons, Named.get?, under]
  obtain ⟨new, hnew, hkinds⟩ := kind?_alter (fun old new hnew rest hrest => by
    rcases old with _ | _ | inner <;> cases hnew
    · simp [under, hempty rest hrest]
    · rfl) h
  rw [kind?]
  rcases hnode : t.node? p with _ | _ | inner <;> rw [hnode] at hnew <;> cases hnew
  · exact ⟨.inl rfl, hkinds⟩
  · exact ⟨.inr rfl, hkinds⟩

/-! ## Where steps lead -/

theorem enter_name {step : String} (hstep : step ≠ Path.up)
    (h : (enter here step).toOption = some next) : next = here ++ [step] := by
  rw [enter, if_neg hstep] at h
  split at h <;> cases h
  rfl

/-- Where steps lead from a place, if they lead anywhere. -/
def reach? (here : Place) (steps : List String) (t : FileTree) : Option Place :=
  (t.follow here steps).toOption

theorem reach?_cons (here : Place) (step : String) (rest : List String) (t : FileTree) :
    t.reach? here (step :: rest) =
      if t.kind? here = some .directory then
        (enter here step).toOption.bind fun next => t.reach? next rest
      else none := by
  rw [reach?, follow, kind?]
  rcases t.node? here with _ | _ | inner
  · rfl
  · rfl
  · rcases enter here step with e | next <;> simp [Node.kind, Except.toOption, reach?]

theorem reach?_append (here : Place) (xs ys : List String) (t : FileTree) :
    t.reach? here (xs ++ ys) = (t.reach? here xs).bind fun next => t.reach? next ys := by
  induction xs generalizing here with
  | nil => rfl
  | cons step xs ih =>
    rw [List.cons_append, reach?_cons, reach?_cons]
    split
    · rcases (enter here step).toOption with _ | next
      · rfl
      · exact ih next
    · rfl

/-- Where steps lead depends on the directories alone. -/
theorem reach?_congr (h : ∀ q, t.kind? q = some .directory ↔ t'.kind? q = some .directory)
    (here : Place) (steps : List String) : t.reach? here steps = t'.reach? here steps := by
  induction steps generalizing here with
  | nil => rfl
  | cons step rest ih => simp only [reach?_cons, h, ih]

/-- What steps lead to. -/
def found? (here : Place) (steps : List String) (t : FileTree) : Option Kind :=
  (t.reach? here steps).bind t.kind?

theorem found?_nil : t.found? here [] = t.kind? here := rfl

theorem found?_cons (here : Place) (step : String) (rest : List String) (t : FileTree) :
    t.found? here (step :: rest) =
      if t.kind? here = some .directory then
        (enter here step).toOption.bind fun next => t.found? next rest
      else none := by
  rw [found?, reach?_cons]
  split
  · rcases (enter here step).toOption <;> rfl
  · rfl

theorem found?_missing (h : t.kind? here = none) (steps : List String) :
    t.found? here steps = none := by
  cases steps with
  | nil => exact h
  | cons step rest => simp [found?_cons, h]

theorem found?_congr (h : ∀ q, t.kind? q = t'.kind? q) (here : Place) (steps : List String) :
    t.found? here steps = t'.found? here steps := by
  have hreach : t.reach? here steps = t'.reach? here steps := reach?_congr (fun q => by rw [h q]) _ _
  rw [found?, found?, hreach]
  exact Option.bind_congr fun q _ => h q

/-- Two names behind the same steps lead to different places. -/
theorem reach?_name_injective {dirs : List String} {name other : String} (hname : name ≠ Path.up)
    (hother : other ≠ Path.up) (h : t.reach? here (dirs ++ [name]) = some q)
    (h' : t.reach? here (dirs ++ [other]) = some q) : name = other := by
  have hlast : ∀ {m : Place} {step : String}, step ≠ Path.up → t.reach? m [step] = some q →
      q = m ++ [step] := by
    intro m step hstep hreach
    rw [reach?_cons] at hreach
    split at hreach
    · obtain ⟨next, henter, hnext⟩ := Option.bind_eq_some_iff.mp hreach
      exact (Option.some.inj hnext).symm.trans (enter_name hstep henter)
    · cases hreach
  rw [reach?_append] at h h'
  obtain ⟨m, hm, hreach⟩ := Option.bind_eq_some_iff.mp h
  rw [hm, Option.bind_some] at h'
  have hplace : m ++ [name] = m ++ [other] := (hlast hname hreach).symm.trans (hlast hother h')
  exact (List.cons.inj (List.append_cancel_left hplace)).1

/-! ## Making the directories on a way -/

/-- A tree in which places where nothing was have become directories. -/
def Grows (t t' : FileTree) : Prop :=
  ∀ q, t'.kind? q = t.kind? q ∨ t.kind? q = none ∧ t'.kind? q = some .directory

theorem Grows.refl (t : FileTree) : Grows t t := fun _ => .inl rfl

theorem Grows.trans {t'' : FileTree} (h : Grows t t') (h' : Grows t' t'') : Grows t t'' := by
  intro q
  rcases h' q with hq | ⟨hq, hq'⟩
  · rw [hq]
    exact h q
  · rcases h q with hp | ⟨-, hp⟩
    · exact .inr ⟨hp ▸ hq, hq'⟩
    · rw [hq] at hp
      cases hp

theorem Grows.file? (h : Grows t t') (q : Place) : t'.file? q = t.file? q := by
  rw [FileTree.file?, FileTree.file?]
  rcases h q with hq | ⟨hq, hq'⟩
  · rw [hq]
  · rw [hq, hq']

theorem Grows.directory (h : Grows t t') (hq : t.kind? q = some .directory) :
    t'.kind? q = some .directory := by
  rcases h q with hq' | ⟨-, hq'⟩
  · rw [hq', hq]
  · exact hq'

/-- What making the directories on a way does first: nothing, and that is all, or the place that
the first step leads to becomes a directory, and the rest of the way is made from there. -/
theorem makeAlong_cons (here : Place) (step : String) (rest : List String) (t : FileTree) :
    (t.makeAlong here (step :: rest)).2 = t ∨
    ∃ (next : Place) (t₁ : FileTree), (enter here step).toOption = some next ∧
      (t.kind? next = none ∨ t.kind? next = some .directory) ∧
      (∀ q, t₁.kind? q = if q = next then some .directory else t.kind? q) ∧
      t.makeAlong here (step :: rest) = t₁.makeAlong next rest := by
  rw [makeAlong]
  rcases enter here step with e | _ | ⟨name, names⟩
  · exact .inl rfl
  · refine .inr ⟨[], t, rfl, .inr rfl, fun q => ?_, rfl⟩
    by_cases hq : q = []
    · rw [if_pos hq, hq, kind?_nil]
    · rw [if_neg hq]
  · dsimp only
    rcases halter : t.alter made (name :: names) with e | t₁
    · exact .inl rfl
    · obtain ⟨hbefore, hkinds⟩ := kind?_made halter
      exact .inr ⟨_, t₁, rfl, hbefore, hkinds, rfl⟩

theorem grows_makeAlong (here : Place) (steps : List String) (t : FileTree) :
    Grows t (t.makeAlong here steps).2 := by
  induction steps generalizing here t with
  | nil => exact .refl t
  | cons step rest ih =>
    rcases makeAlong_cons here step rest t with h | ⟨next, t₁, -, hbefore, hkinds, h⟩
    · rw [h]
      exact .refl t
    · rw [h]
      refine Grows.trans (fun q => ?_) (ih next t₁)
      rw [hkinds q]
      split
      · subst q
        rcases hbefore with hnone | hdir
        · exact .inr ⟨hnone, rfl⟩
        · exact .inl hdir.symm
      · exact .inl rfl

/-- A way down from an empty directory ends in nothing, also when its directories are made. -/
theorem found?_makeAlong_empty {steps : List String} {last : String}
    (hempty : ∀ rest, rest ≠ [] → t.kind? (here ++ rest) = none)
    (hdown : Path.up ∉ steps ++ [last]) :
    (t.makeAlong here steps).2.found? here (steps ++ [last]) = none := by
  induction steps generalizing here t with
  | nil =>
    have hlast : last ≠ Path.up := fun h => hdown (by simp [h])
    rw [List.nil_append, found?_cons]
    split
    · rcases henter : (enter here last).toOption with _ | next
      · rfl
      · rw [Option.bind_some, found?_nil, enter_name hlast henter]
        exact hempty [last] (by simp)
    · rfl
  | cons step rest ih =>
    have hstep : step ≠ Path.up := fun h => hdown (by simp [h])
    rw [List.cons_append, found?_cons]
    split
    case isFalse => rfl
    case isTrue =>
    rcases henter : (enter here step).toOption with _ | next
    · rfl
    rw [Option.bind_some]
    obtain rfl := enter_name hstep henter
    rcases makeAlong_cons here step rest t with h | ⟨next, t₁, hnext, -, hkinds, h⟩ <;> rw [h]
    · exact found?_missing (hempty [step] (by simp)) _
    · obtain rfl : here ++ [step] = next := Option.some.inj (henter.symm.trans hnext)
      refine ih (fun below hbelow => ?_) fun hup => hdown (List.mem_cons_of_mem _ hup)
      rw [hkinds, if_neg (by simpa using hbelow), List.append_assoc]
      exact hempty _ (by simp)

/-- Making the directories on a way keeps what is at its end, if everything that the way steps up
out of is there before. -/
theorem found?_makeAlong {steps : List String} {last : String}
    (hhere : t.kind? here = some .directory)
    (hgrounded : ∀ pre post, steps ++ [last] = pre ++ Path.up :: post →
      (t.found? here pre).isSome) :
    (t.makeAlong here steps).2.found? here (steps ++ [last]) = t.found? here (steps ++ [last]) := by
  induction steps generalizing here t with
  | nil => rfl
  | cons step rest ih =>
    rcases makeAlong_cons here step rest t with h | ⟨next, t₁, hnext, hbefore, hkinds, h⟩
    · rw [h]
    have hhere' : (t.makeAlong here (step :: rest)).2.kind? here = some .directory :=
      (grows_makeAlong here (step :: rest) t).directory hhere
    have hsplit : ∀ steps : List String, t.found? here (step :: steps) = t.found? next steps := by
      intro steps
      rw [found?_cons, if_pos hhere, hnext, Option.bind_some]
    rw [List.cons_append, hsplit, found?_cons, if_pos hhere', hnext, Option.bind_some, h]
    have hgrounded' : ∀ pre post, rest ++ [last] = pre ++ Path.up :: post →
        (t.found? next pre).isSome := by
      intro pre post hsteps
      rw [← hsplit]
      exact hgrounded (step :: pre) post (by simp [hsteps])
    rcases hbefore with hnone | hdir
    · -- Nothing was there, so no step leads up behind it.
      rw [found?_missing hnone]
      have hne : next ≠ [] := by
        rintro rfl
        cases hnone
      refine found?_makeAlong_empty (fun below hbelow => ?_) fun hup => ?_
      · rw [hkinds, if_neg (by simpa using hbelow)]
        exact kind?_below_missing hnone below
      · obtain ⟨pre, post, hsteps⟩ := List.append_of_mem hup
        simpa [found?_missing hnone] using hgrounded' pre post hsteps
    · have hsame : ∀ q, t₁.kind? q = t.kind? q := by
        intro q
        rw [hkinds]
        split
        · subst q
          exact hdir.symm
        · rfl
      rw [ih ((hsame next).trans hdir) fun pre post hsteps => by
        rw [found?_congr hsame]
        exact hgrounded' pre post hsteps]
      exact found?_congr hsame _ _

/-! ## At the end of a path -/

variable {path source target : Path}

/-- Where a path leads, if it leads anywhere. -/
def leads? (path : Path) (t : FileTree) : Option Place := (t.place path).toOption

/-- What one finds at the end of a path. -/
def view? (path : Path) (t : FileTree) : Option Kind := (t.look path).toOption.map Node.kind

theorem place_eq_ok : t.place path = .ok q ↔ t.leads? path = some q := by
  rw [leads?]
  rcases t.place path <;> simp [Except.toOption]

theorem leads?_eq (path : Path) (t : FileTree) :
    t.leads? path = if path.defect? = none then t.reach? [] path.steps else none := by
  rw [leads?, place]
  rcases path.defect? with _ | e <;> rfl

theorem defect?_of_leads? (h : t.leads? path = some q) : path.defect? = none := by
  rw [leads?_eq] at h
  split at h
  · assumption
  · cases h

theorem leads?_congr (h : ∀ q, t.kind? q = some .directory ↔ t'.kind? q = some .directory)
    (path : Path) : t.leads? path = t'.leads? path := by
  rw [leads?_eq, leads?_eq, reach?_congr h]

/-- A path that asks for a directory shows no file. -/
theorem view?_eq (path : Path) (t : FileTree) :
    t.view? path =
      ((t.leads? path).bind t.kind?).filter fun k => k = .directory || !path.directory := by
  rw [view?, leads?, look]
  rcases t.place path with e | q
  · rfl
  · simp only [Except.toOption, Option.bind_some]
    rw [kind?]
    rcases t.node? q with _ | bytes | inner
    · rfl
    · cases path.directory <;> rfl
    · rfl

theorem view?_of_file (hdir : path.directory = false) (hq : t.leads? path = some q)
    (hfile : t.kind? q = some (.file bytes)) : t.view? path = some (.file bytes) := by
  rw [view?_eq, hq, Option.bind_some, hfile, hdir]
  rfl

theorem view?_of_no_directory (hdir : path.directory = true) (hq : t.leads? path = some q)
    (hkind : t.kind? q ≠ some .directory) : t.view? path = none := by
  rw [view?_eq, hq, Option.bind_some, hdir]
  rcases hk : t.kind? q with _ | _ | _
  · rfl
  · rfl
  · exact absurd hk hkind

theorem contains_eq (path : Path) (t : FileTree) : t.contains path = (t.view? path).isSome := by
  rw [contains, view?]
  rcases t.look path <;> rfl

theorem read_eq_ok : t.read path = .ok bytes ↔ t.view? path = some (.file bytes) := by
  rw [read, view?]
  rcases t.look path with e | _ | inner <;> simp [Except.toOption, Node.kind]

/-- A write that succeeds puts a file where its path leads. -/
theorem write_ok (h : t.write path bytes = .ok t') :
    path.directory = false ∧ ∃ q, t.leads? path = some q ∧ t.kind? q ≠ some .directory ∧
      ∀ r, t'.kind? r = if r = q then some (.file bytes) else t.kind? r := by
  rw [write] at h
  rw [leads?]
  rcases hplace : t.place path with e | q <;> simp only [hplace] at h
  · cases h
  · cases hdir : path.directory <;> rw [hdir] at h
    · exact ⟨rfl, q, rfl, kind?_written h⟩
    · cases h

/-- A move that succeeds puts the file of its first path where its second one leads, and nothing is
left where the first one leads, unless they lead to one place. -/
theorem rename_ok (h : t.rename source target = .ok t') :
    target.directory = false ∧ ∃ old new bytes, t.leads? source = some old ∧
      t.leads? target = some new ∧ t.kind? old = some (.file bytes) ∧
      t.kind? new ≠ some .directory ∧
      ∀ q, t'.kind? q =
        if q = new then some (.file bytes) else if q = old then none else t.kind? q := by
  rw [rename] at h
  rw [leads?, leads?]
  rcases hread : t.read source with e | bytes <;> rcases hold : t.place source with e | old <;>
    rcases hnew : t.place target with e | new <;> simp only [hread, hold, hnew] at h <;>
    try cases h
  cases hdir : target.directory <;> rw [hdir] at h
  case true => cases h
  have hfile : t.kind? old = some (.file bytes) := by
    have hsource := read_eq_ok.mp hread
    rw [view?_eq, leads?, hold] at hsource
    exact (Option.filter_eq_some_iff.mp hsource).1
  refine ⟨rfl, old, new, bytes, rfl, rfl, hfile, ?_⟩
  by_cases hsame : old = new
  · -- The file stays where it is.
    subst hsame
    rw [if_neg Bool.false_ne_true, if_pos rfl] at h
    cases h
    refine ⟨by simp [hfile], fun q => ?_⟩
    by_cases hq : q = old
    · rw [if_pos hq, hq, hfile]
    · rw [if_neg hq, if_neg hq]
  · rw [if_neg Bool.false_ne_true, if_neg hsame] at h
    rcases hwrite : t.alter (written bytes) new with e | t₁ <;> rw [hwrite] at h
    · cases h
    · obtain ⟨hbefore, hkinds⟩ := kind?_written hwrite
      refine ⟨hbefore, fun q => ?_⟩
      rw [kind?_removed h, hkinds]
      by_cases hq : q = new
      · rw [if_neg fun hqo => hsame (hqo.symm.trans hq), if_pos hq, if_pos hq]
      · rw [if_neg hq, if_neg hq]

theorem rename_self (hsource : t.view? source = some (.file bytes)) (hold : t.leads? source = some q)
    (hnew : t.leads? target = some q) (hdir : target.directory = false) :
    t.rename source target = .ok t := by
  rw [rename, read_eq_ok.mpr hsource, place_eq_ok.mpr hold, place_eq_ok.mpr hnew]
  simp [hdir]

/-- Writing a file changes no directory, so every path leads where it led. -/
theorem leads?_write (h : t.write path bytes = .ok t') (other : Path) :
    t'.leads? other = t.leads? other := by
  obtain ⟨-, q, -, hbefore, hkinds⟩ := write_ok h
  refine leads?_congr (fun r => ?_) other
  rw [hkinds]
  split
  · subst r
    simp [hbefore]
  · rfl

/-- Nor does moving one. -/
theorem leads?_rename (h : t.rename source target = .ok t') (other : Path) :
    t'.leads? other = t.leads? other := by
  obtain ⟨-, old, new, bytes, -, -, hfile, hbefore, hkinds⟩ := rename_ok h
  refine leads?_congr (fun r => ?_) other
  rw [hkinds]
  split
  · subst r
    simp [hbefore]
  · split
    · subst r
      simp [hfile]
    · rfl

/-! ## Making the directories on a path -/

/-- Everything that a path steps up out of is there. -/
def Grounded (path : Path) (t : FileTree) : Prop :=
  ∀ pre post, path.steps = pre ++ Path.up :: post → t.contains { steps := pre } = true

theorem grows_makeDirectories (path : Path) (t : FileTree) :
    Grows t (t.makeDirectories path).2 := by
  rw [makeDirectories]
  rcases path.defect? with _ | e
  · exact grows_makeAlong [] path.steps t
  · exact .refl t

/-- Making the directories that a path is in keeps what is at its end, if everything that it steps
up out of is there. -/
theorem view?_makeDirectories (hgrounded : Grounded path t) :
    (t.makeDirectories path.parent).2.view? path = t.view? path := by
  have hfound : (t.makeDirectories path.parent).2.found? [] path.steps = t.found? [] path.steps := by
    rw [makeDirectories]
    rcases path.parent.defect? with _ | e
    · rw [Path.parent]
      rcases List.eq_nil_or_concat' path.steps with hsteps | ⟨dirs, last, hsteps⟩
      · rw [hsteps]
        rfl
      · rw [hsteps, List.dropLast_concat]
        refine found?_makeAlong (kind?_nil t) fun pre post hpre => ?_
        have hthere := hgrounded pre post (hsteps.trans hpre)
        rw [contains_eq, view?_eq, leads?_eq] at hthere
        obtain ⟨k, hk⟩ := Option.isSome_iff_exists.mp hthere
        have hk := (Option.filter_eq_some_iff.mp hk).1
        split at hk
        · exact Option.isSome_iff_exists.mpr ⟨k, hk⟩
        · cases hk
    · rfl
  rw [view?_eq, view?_eq, leads?_eq, leads?_eq]
  split
  · exact congrArg _ hfound
  · rfl

end FileTree

end VehicleLink
