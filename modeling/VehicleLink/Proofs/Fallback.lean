import VehicleLink.Proofs.Dialing

/-!
# The order of attempts

How far a plan has come is its `Stage`: an attempt that is still wanted is under way and the rest of
the plan is queued behind it, or all of the plan has failed, or the plan is over because a link came
up or the attempt was given up. A turn without a plan of its own leads from a stage to a stage
(`Stage.later`), so until the next plan begins, whatever the radio answers and reports, the plan is
`Pursued` (`plan_pursued`).
-/

namespace VehicleLink

namespace Endpoint

variable {plan failed : List Address} {asked : List (Address × Bool)} {t : Transport}

/-! ## Stages -/

/-- How far a plan has come, with what was asked for and what has failed of it. -/
inductive Stage (plan : List Address) (asked : List (Address × Bool)) (failed : List Address)
    (t : Transport) : Prop
  | underway (a : Address) (connection : t.connection = .connecting a false)
      (last : asked.getLast? = some (a, true)) (tried : asked.map Prod.fst = failed ++ [a])
      (rest : plan = failed ++ a :: t.candidates.map Candidate.address)
  | exhausted (connection : t.connection = .disconnected) (tried : asked.map Prod.fst = failed)
      (rest : plan = failed)
  | concluded (a : Address) (unwanted : ∀ p, t.connection ≠ .connecting p false)
      (tried : asked.map Prod.fst = failed ++ [a]) (rest : failed ++ [a] <+: plan)

theorem refusedOf_refused (cs : List Candidate) :
    refusedOf (cs.map fun c => (c.address, false)) = cs.map Candidate.address := by
  simp [refusedOf, List.filter_map, Function.comp_def]

theorem map_fst_refused (cs : List Candidate) :
    (cs.map fun c => (c.address, false)).map Prod.fst = cs.map Candidate.address := by
  simp

/-- What is behind the failed part of a plan is tried next. -/
theorem stage_of_triedOut {cs : List Candidate} {before : List (Address × Bool)}
    (h : TriedOut cs asked t) (hplan : plan = failed ++ cs.map Candidate.address)
    (hbefore : before.map Prod.fst = failed) :
    Stage plan (before ++ asked) (failed ++ refusedOf asked) t := by
  cases h with
  | refused connection candidates =>
    refine .exhausted connection ?_ ?_
    · rw [List.map_append, hbefore, map_fst_refused, refusedOf_refused]
    · rw [hplan, refusedOf_refused]
  | takenUp refused c split connection =>
    have hrefused : refusedOf (refused.map (fun d => (d.address, false)) ++ [(c.address, true)]) =
        refused.map Candidate.address := by
      rw [refusedOf, List.filter_append, List.map_append]
      exact (List.append_nil _).trans (refusedOf_refused refused)
    refine .underway c.address connection ?_ ?_ ?_
    · rw [← List.append_assoc, List.getLast?_concat]
    · rw [hrefused, List.map_append, List.map_append, hbefore, map_fst_refused, List.append_assoc]
      rfl
    · rw [hrefused, hplan, split, List.map_append, List.append_assoc]
      rfl

variable {ρ σ : Type} [Radio ρ] [DeviceStore σ] {u : Turn ρ σ}

/-- A turn that begins no plan leads the one before further, or leaves it where it is. -/
theorem Stage.later (h : Stage plan asked failed u.before.transport) (hplan : u.plan? = none) :
    Stage plan (asked ++ u.asked) (failed ++ u.failed) u.after.transport := by
  cases u.dialing.1 with
  | plans plan' cs planned => cases hplan.symm.trans planned
  | fallsBack p planned reported connection tried =>
    -- the failed attempt is the one under way, and the candidates are what the plan has left
    cases h with
    | underway a going last htried rest =>
      cases going.symm.trans connection
      rw [Turn.failed, reported, Option.toList_some, ← List.append_assoc]
      refine stage_of_triedOut tried ?_ htried
      rw [rest, List.append_assoc]
      rfl
    | exhausted gone => cases gone.symm.trans connection
    | concluded a unwanted => exact absurd connection (unwanted p)
  | passes planned reported hasked lingers =>
    rw [Turn.failed, reported, hasked, List.append_nil, Option.toList_none, List.nil_append,
      refusedOf, List.filter_nil, List.map_nil, List.append_nil]
    cases h with
    | underway a connection last htried rest =>
      -- with the attempt the rest of the plan is given up too
      by_cases hstill : u.after.transport.connection = .connecting a false
      · obtain ⟨-, hcandidates⟩ := lingers.going a hstill
        exact .underway a hstill last htried (by rw [hcandidates]; exact rest)
      · have hprefix : failed ++ [a] <+: plan :=
          ⟨u.before.transport.candidates.map Candidate.address, by rw [rest, List.append_assoc]; rfl⟩
        refine .concluded a (fun p hp => hstill ?_) htried hprefix
        cases connection.symm.trans (lingers.going p hp).1
        exact hp
    | exhausted gone htried rest => exact .exhausted (lingers.idle gone) htried rest
    | concluded a unwanted htried rest =>
      exact .concluded a (fun p hp => unwanted p (lingers.going p hp).1) htried rest

/-- The stage of a plan that begins. -/
theorem stage_of_plan {t : Turn ρ σ} (hplan : t.plan? = some plan) :
    Stage plan t.asked t.failed t.after.transport := by
  cases t.dialing.1 with
  | plans plan' cs planned addresses reported tried =>
    cases hplan.symm.trans planned
    rw [Turn.failed, reported]
    exact stage_of_triedOut tried addresses.symm List.map_nil
  | fallsBack p planned => cases hplan.symm.trans planned
  | passes planned => cases hplan.symm.trans planned

theorem Stage.inOrder (h : Stage plan asked failed t) : asked.map Prod.fst <+: plan := by
  cases h with
  | underway a connection last htried rest =>
    rw [htried, rest]
    exact ⟨t.candidates.map Candidate.address, by simp⟩
  | exhausted gone htried rest => exact (htried.trans rest.symm) ▸ List.prefix_rfl
  | concluded a unwanted htried rest => exact htried ▸ rest

theorem Stage.complete (h : Stage plan asked failed t) (hfailed : asked.map Prod.fst = failed) :
    asked.map Prod.fst = plan := by
  have hnot (a : Address) : asked.map Prod.fst ≠ failed ++ [a] := by simp [hfailed]
  cases h with
  | underway a connection last htried => exact absurd htried (hnot a)
  | exhausted gone htried rest => exact htried.trans rest.symm
  | concluded a unwanted htried => exact absurd htried (hnot a)

/-- An attempt that has not failed is at an address of the plan, so if all have failed there is
none. -/
theorem Stage.disconnected (h : Stage plan asked failed t) (hdistinct : plan.Nodup)
    (hall : ∀ a ∈ plan, a ∈ failed) : t.connection = .disconnected := by
  have hnot {a : Address} (h : failed ++ [a] <+: plan) : False := by
    have hnodup : (failed ++ [a]).Nodup := hdistinct.sublist h.sublist
    rw [List.nodup_append] at hnodup
    exact hnodup.2.2 a (hall a (h.subset (by simp))) a (by simp) rfl
  cases h with
  | underway a connection last htried rest =>
    have hprefix : failed ++ [a] <+: plan :=
      ⟨t.candidates.map Candidate.address, by rw [rest, List.append_assoc]; rfl⟩
    exact (hnot hprefix).elim
  | exhausted gone => exact gone
  | concluded a unwanted htried rest => exact (hnot rest).elim

/-! ## Runs -/

/-- The attempts of several turns. -/
def askedIn (ts : List (Turn ρ σ)) : List (Address × Bool) := ts.flatMap Turn.asked

/-- The addresses that were tried in several turns. -/
def tried (ts : List (Turn ρ σ)) : List Address := (askedIn ts).map Prod.fst

variable {w : Endpoint (Logged ρ) σ} {s : LinkSettings}

theorem stage_run {t : Turn ρ σ} (hplan : t.plan? = some plan) (later : List (Step ρ σ))
    (hlater : ∀ u ∈ turns later t.after, u.plan? = none) :
    Stage plan (askedIn (t :: turns later t.after))
      ((t :: turns later t.after).flatMap Turn.failed) (t.after.runLogged later).transport := by
  induction later using List.reverseRecOn with
  | nil =>
    have hstage := stage_of_plan hplan
    simpa [askedIn, turns, runLogged] using hstage
  | append_singleton later st ih =>
    obtain ⟨u, hturns, -, hbefore, hafter⟩ := exists_last_turn later st t.after
    rw [hturns] at hlater ⊢
    have hstage := ih fun v hv => hlater v (List.mem_append_left _ hv)
    rw [← hbefore] at hstage
    have hnext := hstage.later (hlater u (by simp))
    rw [hafter] at hnext
    simpa [askedIn] using hnext

/-- Where no attempt is wanted and no plan begins, nothing is tried. -/
theorem unasked_turns {steps : List (Step ρ σ)}
    (hw : ∀ p, w.transport.connection ≠ .connecting p false)
    (hplan : ∀ u ∈ turns steps w, u.plan? = none) : ∀ u ∈ turns steps w, u.asked = [] := by
  induction steps generalizing w with
  | nil => simp [turns]
  | cons st steps ih =>
    let t : Turn ρ σ := ⟨w, st⟩
    have ht := hplan t List.mem_cons_self
    cases t.dialing.1 with
    | plans plan cs planned => cases ht.symm.trans planned
    | fallsBack p planned reported connection => exact absurd connection (hw p)
    | passes planned reported asked lingers =>
      intro u hu
      rcases List.mem_cons.1 hu with rfl | hu
      · exact asked
      · exact ih (fun p hp => hw p (lingers.going p hp).1)
          (fun v hv => hplan v (List.mem_cons_of_mem t hv)) u hu

theorem plan?_of_concludes {t : Turn ρ σ} (h : t.Concludes) : t.plan? = none := by
  rcases h with hlink | hstep | hstep
  · obtain ⟨hevent, -⟩ := Turn.establishes_iff.1 hlink
    obtain ⟨-, -, -, -, hidle⟩ := Turn.handles_of_event hevent
    exact Turn.plan?_of_idle hidle
  · simp [Turn.plan?, hstep, plan?]
  · simp [Turn.plan?, hstep, plan?]

/-- The turn that concludes a plan tries nothing, and leaves no attempt that is wanted. -/
theorem unwanted_of_concludes {t : Turn ρ σ} (hreached : Reached s t.before) (h : t.Concludes) :
    t.asked = [] ∧ ∀ p, t.after.transport.connection ≠ .connecting p false := by
  have hplan := plan?_of_concludes h
  have hreported : t.reported? = none := by
    refine Option.eq_none_iff_forall_not_mem.2 fun p hp => ?_
    obtain ⟨hdown, -⟩ := Turn.reported?_eq_some.1 hp
    rcases h with hlink | hstep | hstep
    · cases hdown.symm.trans (Turn.establishes_iff.1 hlink).1
    · cases hdown.symm.trans (Turn.event?_of_consumer rfl hstep)
    · cases hdown.symm.trans (Turn.event?_of_consumer rfl hstep)
  constructor
  · cases t.dialing.1 with
    | plans plan cs planned => cases hplan.symm.trans planned
    | fallsBack p planned reported => cases hreported.symm.trans reported
    | passes planned reported asked => exact asked
  · rcases h with hlink | hstep | hstep
    · intro p hp
      rw [Turn.establishes_eq, isUp, isUp, hp] at hlink
      simp [Connection.isConnected] at hlink
    · rw [Turn.after_of_step hstep]
      exact not_connecting_of_unwanted (ended_disconnect _).unwanted.1
    · rw [Turn.after_of_step hstep]
      exact not_connecting_of_unwanted (unwanted_stop hreached).1

/-- How a plan is pursued in the turns from the one that begins it until another plan begins. -/
structure Pursued (plan : List Address) (ts : List (Turn ρ σ)) (w : Endpoint (Logged ρ) σ) :
    Prop where
  /-- No address is planned twice. -/
  distinct : plan.Nodup
  /-- The addresses are tried in the order of the plan, and none is skipped. -/
  inOrder : tried ts <+: plan
  /-- In the same turn another address is tried only after the one before it was refused. -/
  afterRefusal : ∀ t ∈ ts, ∀ x ∈ t.asked.dropLast, x.2 = false
  /-- In a later turn an address is tried only when the attempt at the one before it, which was
  taken up, is reported down and no one has asked to end it. -/
  afterReport : ∀ before t after, ts = before ++ t :: after → before ≠ [] → t.asked ≠ [] →
    ∃ a, (askedIn before).getLast? = some (a, true) ∧ t.reported? = some a
  /-- Once a link is established or attempts are given up nothing is tried. -/
  afterConclusion : ∀ before t after, ts = before ++ t :: after → t.Concludes →
    ∀ u ∈ t :: after, u.asked = []
  /-- As long as every attempt fails the next address is tried. -/
  untilTakenUp : tried ts = ts.flatMap Turn.failed → tried ts = plan
  /-- If all fail, nothing is under way and nothing is queued. -/
  exhausted : (∀ a ∈ plan, a ∈ ts.flatMap Turn.failed) →
    w.transport.connection = .disconnected ∧ w.transport.candidates = []

theorem TriedOut.refused_first {cs : List Candidate} (h : TriedOut cs asked t) :
    ∀ x ∈ asked.dropLast, x.2 = false := by
  cases h with
  | refused =>
    intro x hx
    obtain ⟨c, -, rfl⟩ := List.mem_map.1 (List.dropLast_subset _ hx)
    rfl
  | takenUp refused c =>
    rw [List.dropLast_concat]
    intro x hx
    obtain ⟨d, -, rfl⟩ := List.mem_map.1 hx
    rfl

theorem refused_first (t : Turn ρ σ) : ∀ x ∈ t.asked.dropLast, x.2 = false := by
  cases t.dialing.1 with
  | plans plan cs planned addresses reported tried => exact tried.refused_first
  | fallsBack p planned reported connection tried => exact tried.refused_first
  | passes planned reported asked => simp [asked]

/-- A turn that tries something in the course of a plan hears that the last attempt has failed. -/
theorem Stage.reported (h : Stage plan asked failed u.before.transport) (hplan : u.plan? = none)
    (hasked : u.asked ≠ []) : ∃ a, asked.getLast? = some (a, true) ∧ u.reported? = some a := by
  cases u.dialing.1 with
  | plans plan' cs planned => cases hplan.symm.trans planned
  | passes planned reported hnone => exact absurd hnone hasked
  | fallsBack p planned reported connection =>
    cases h with
    | underway a going last =>
      cases going.symm.trans connection
      exact ⟨p, last, reported⟩
    | exhausted gone => cases gone.symm.trans connection
    | concluded a unwanted => exact absurd connection (unwanted p)

/-- From the turn that begins it until the next plan begins a plan is pursued. -/
theorem pursued {t : Turn ρ σ} (hreached : Reached s t.before) (hplan : t.plan? = some plan)
    (later : List (Step ρ σ)) (hlater : ∀ u ∈ turns later t.after, u.plan? = none) :
    Pursued plan (t :: turns later t.after) (t.after.runLogged later) := by
  have hstage := stage_run hplan later hlater
  obtain ⟨a, -, hbegins⟩ := Turn.act_of_plan hplan
  have hdistinct := nodup_plan hbegins
  refine ⟨hdistinct, hstage.inOrder, fun u _ => refused_first u, ?_, ?_, hstage.complete, ?_⟩
  -- the first turn of the list is the one that begins the plan, so the split is behind it
  · intro before u after hsplit hbefore hasked
    cases before with
    | nil => exact absurd rfl hbefore
    | cons v before =>
      obtain ⟨rfl, hrest⟩ := List.cons.inj hsplit
      obtain ⟨first, -, rfl, hu, -⟩ := turns_split hrest
      rw [hrest] at hlater
      have hearlier := stage_run hplan first fun v hv => hlater v (List.mem_append_left _ hv)
      rw [← hu] at hearlier
      exact hearlier.reported (hlater u (by simp)) hasked
  · intro before u after hsplit hconcludes
    cases before with
    | nil =>
      obtain ⟨rfl, -⟩ := List.cons.inj hsplit
      cases hplan.symm.trans (plan?_of_concludes hconcludes)
    | cons v before =>
      obtain ⟨rfl, hrest⟩ := List.cons.inj hsplit
      obtain ⟨first, rest, -, hu, rfl⟩ := turns_split hrest
      have hbefore : Reached s u.before := by
        rw [hu]
        exact reached_run (Reached.after hreached) first
      obtain ⟨hnone, hunwanted⟩ := unwanted_of_concludes hbefore hconcludes
      intro v hv
      rcases List.mem_cons.1 hv with rfl | hv
      · exact hnone
      · exact unasked_turns hunwanted (fun v hv => hlater v (by simp [hrest, hv])) v hv
  · intro hall
    have hgone := hstage.disconnected hdistinct hall
    have hsound := (reached_run (Reached.after hreached) later).sound
    exact ⟨hgone, hsound.no_candidates (by simp [hgone])⟩

/-- Every attempt is counted. -/
theorem attempts_run (steps : List (Step ρ σ)) (w : Endpoint (Logged ρ) σ) :
    (w.runLogged steps).transport.tally.attempts =
      w.transport.tally.attempts + (askedIn (turns steps w)).length := by
  induction steps using List.reverseRecOn with
  | nil => rfl
  | append_singleton steps st ih =>
    obtain ⟨t, hturns, -, hbefore, hafter⟩ := exists_last_turn steps st w
    have hcount := t.dialing.2.attempts
    rw [hbefore, ih] at hcount
    rw [hturns, ← hafter, hcount]
    simp [askedIn, Nat.add_assoc]

/-- In any run of a transport that was created the attempts are counted, and each belongs to a plan.
A connect, or a poll that is due, begins a plan if it finds the transport running and disconnected;
whatever the radio answers and reports, and whatever is called, the plan is pursued until the next
one begins. -/
theorem plan_pursued {target : Option String} {radio : Logged ρ} {store : σ}
    (hw : create s target radio store = .ok w) (steps : List (Step ρ σ)) :
    (w.runLogged steps).transport.health.attempts = (askedIn (turns steps w)).length ∧
    ((∀ t ∈ turns steps w, t.plan? = none) → ∀ t ∈ turns steps w, t.asked = []) ∧
    ∀ (t : Turn ρ σ) (plan : List Address), t.before = w.runLogged steps → t.plan? = some plan →
      ∀ later, (∀ u ∈ turns later t.after, u.plan? = none) →
        Pursued plan (t :: turns later t.after) (t.after.runLogged later) := by
  have hreached : Reached s (w.runLogged steps) := reached_run (reached_create hw) steps
  obtain ⟨a, devices, -, rfl⟩ := create_eq hw
  refine ⟨?_, unasked_turns nofun, fun t plan hbefore hplan later hlater => ?_⟩
  · refine (attempts_run steps _).trans ?_
    exact Nat.zero_add _
  · exact pursued (hbefore ▸ hreached) hplan later hlater

/-- Two devices are remembered. The attempt at the first fails, the one at the second succeeds, and
after the link has gone down nothing is tried again. -/
theorem plan_pursued_past_failure :
    ∃ (w : Endpoint (Logged Radio.Simulated) Store.Memory)
      (steps later : List (Step Radio.Simulated Store.Memory))
      (t : Turn Radio.Simulated Store.Memory),
      create {} none ⟨{ behaviour := { autoConnect := false } }, []⟩
        ⟨{ known := (({} : AddressSet).insert ⟨0, 0, 0, 0, 0, 10⟩).insert ⟨0, 0, 0, 0, 0, 11⟩ }⟩ =
          .ok w ∧
      t.before = w.runLogged steps ∧
      t.plan? = some [⟨0, 0, 0, 0, 0, 10⟩, ⟨0, 0, 0, 0, 0, 11⟩] ∧
      askedIn (t :: turns later t.after) =
        [(⟨0, 0, 0, 0, 0, 10⟩, true), (⟨0, 0, 0, 0, 0, 11⟩, true)] ∧
      Pursued [⟨0, 0, 0, 0, 0, 10⟩, ⟨0, 0, 0, 0, 0, 11⟩] (t :: turns later t.after)
        (t.after.runLogged later) := by
  let radio : Logged Radio.Simulated := ⟨{ behaviour := { autoConnect := false } }, []⟩
  let store : Store.Memory :=
    ⟨{ known := (({} : AddressSet).insert ⟨0, 0, 0, 0, 0, 10⟩).insert ⟨0, 0, 0, 0, 0, 11⟩ }⟩
  let later : List (Step Radio.Simulated Store.Memory) :=
    [.act (.handle .linkDown), .act (.handle .linkUp), .act (.handle .linkDown)]
  let w := fresh {} none store.devices radio store
  let t : Turn Radio.Simulated Store.Memory := ⟨w.runLogged [.act .start], .act (.connect none)⟩
  have hw : create {} none radio store = .ok w := rfl
  exact ⟨w, [.act .start], later, t, hw, rfl, by decide, by decide,
    (plan_pursued hw [.act .start]).2.2 t _ rfl (by decide) later (by decide)⟩

end Endpoint

end VehicleLink
