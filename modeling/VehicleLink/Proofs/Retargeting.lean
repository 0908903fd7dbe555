import VehicleLink.Proofs.Fallback
import VehicleLink.Proofs.Target

/-!
# What the answer to a new target covers

A new target is answered with whether the link that is up leads elsewhere (`setTarget_answer`). An
attempt under way is no such link: it goes on, and so do the candidates queued behind it. That is all
that may lead elsewhere after the answer was no (`MayLink`); every plan begun later is for the target
(`links_after_setTarget`).
-/

namespace VehicleLink

namespace Endpoint

variable {ρ σ : Type} {d : Address}

/-! ## The answer -/

/-- A text that spells an address is answered with whether the link is to another one. -/
theorem setTarget_answer (w : Endpoint ρ σ) {text : String} (hd : Address.parse? text = some d) :
    ∃ answer, (w.setTarget (some text)).1 = .ok answer ∧
      (answer = true ↔
        ∃ p ready ends, w.transport.connection = .connected p ready ends ∧ p ≠ d) := by
  rw [setTarget, Address.parseOptional, Address.parse, hd]
  refine ⟨_, rfl, ?_⟩
  cases w.transport.connection with
  | connected p ready ends =>
    simp [Reconnect.Policy.mustMove, Connection.isConnected, Connection.peer?]
  | _ => simp [Reconnect.Policy.mustMove, Connection.isConnected]

/-! ## Where links may lead -/

/-- The peers of the links that may be up after `d` became the target of `t`, given the attempts made
since. -/
inductive MayLink (d : Address) (t : Transport) (asked : List (Address × Bool)) : Address → Prop
  | target : MayLink d t asked d
  /-- An attempt was under way, and none was made since. -/
  | underway (p : Address) (h : t.connection = .connecting p false) (unasked : asked = []) :
      MayLink d t asked p
  | queued (c : Candidate) (h : c ∈ t.candidates) : MayLink d t asked c.address

/-- What holds of `t'` after `d` became the target of `t`, given the attempts made since. -/
structure Redirected (d : Address) (t : Transport) (asked : List (Address × Bool))
    (t' : Transport) : Prop where
  target : t'.policy.target = some d
  candidates : ∀ c ∈ t'.candidates, c.address = d ∨ c ∈ t.candidates
  attempt : ∀ p, t'.connection = .connecting p false → MayLink d t asked p
  link : ∀ p ready ends, t'.connection = .connected p ready ends → MayLink d t asked p

variable [Radio ρ] [DeviceStore σ]

theorem target_act {a : Action} (ha : a.byConsumer = true)
    (hset : ∀ target, a ≠ .setTarget target) (w : Endpoint ρ σ) :
    (w.act a).transport.policy.target = w.transport.policy.target := by
  have h := acted_act ha w
  generalize w.act a = w' at h ⊢
  cases h with
  | stops hu h => exact h.intake.target.trans hu.link.target
  | seeks running h => exact h.traffic.target
  | ends h => exact h.intake.target
  | aside h => exact h.link.target
  | writes h => exact h.written.course.target
  | retargets target => exact absurd rfl (hset target)
  | drains h => exact h.course.target
  | _ => rfl

theorem target_after {u : Turn ρ σ} (hset : u.step.retargets = false) :
    u.after.transport.policy.target = u.before.transport.policy.target := by
  cases u.kind with
  | still idle event transport log => rw [transport]
  | handles e w idle event transport radio after => rw [after, (setup_handle e w).target, transport]
  | acts a ha hstep =>
    rw [Turn.after_of_step hstep]
    refine target_act ha (fun target h => ?_) u.before
    rw [hstep, h] at hset
    cases hset

omit [DeviceStore σ] in
/-- A plan is for the target unless a consumer chose an address. -/
theorem addresses_of_plan {u : Turn ρ σ} {plan : List Address} (hplan : u.plan? = some plan)
    (hchoice : u.step.chooses = false) (htarget : u.before.transport.policy.target = some d) :
    plan = [d] := by
  have haddresses : u.before.addresses none = [d] := by
    rw [addresses, htarget]
    rfl
  obtain ⟨a, hstep, hbegins⟩ := Turn.act_of_plan hplan
  rw [hstep] at hchoice
  obtain ⟨-, -, ⟨target, rfl, rfl⟩ | ⟨instant, -, -, rfl⟩⟩ := plan?_cases hbegins
  · cases target with
    | none => exact haddresses
    | some x => cases hchoice
  · exact haddresses

variable {s : LinkSettings} {t : Transport} {asked : List (Address × Bool)}

/-- Attempts at candidates that lead to the target or were queued before. -/
theorem redirected_of_triedOut {cs : List Candidate} {t' : Transport}
    {before : List (Address × Bool)} (h : TriedOut cs asked t')
    (htarget : t'.policy.target = some d) (hcs : ∀ c ∈ cs, c.address = d ∨ c ∈ t.candidates) :
    Redirected d t (before ++ asked) t' := by
  have hmay {c : Candidate} (hc : c ∈ cs) : MayLink d t (before ++ asked) c.address := by
    rcases hcs c hc with rfl | hqueued
    · exact .target
    · exact .queued c hqueued
  cases h with
  | refused connection candidates =>
    refine ⟨htarget, ?_, ?_, ?_⟩
    · simp [candidates]
    · simp [connection]
    · simp [connection]
  | takenUp refused c split connection =>
    refine ⟨htarget, fun k hk => hcs k (by simp [split, hk]), fun p hp => ?_, fun p _ _ hp => ?_⟩
    · cases connection.symm.trans hp
      exact hmay (by simp [split])
    · cases connection.symm.trans hp

/-- A turn keeps to what may be linked. -/
theorem Redirected.turn {u : Turn ρ σ} (h : Redirected d t asked u.before.transport)
    (hsound : Sound s u.after.transport) (hset : u.step.retargets = false)
    (hchoice : u.step.chooses = false) :
    Redirected d t (asked ++ u.asked) u.after.transport := by
  have htarget := (target_after hset).trans h.target
  cases u.dialing.1 with
  | plans plan cs planned haddresses reported tried =>
    rw [addresses_of_plan planned hchoice h.target] at haddresses
    refine redirected_of_triedOut tried htarget fun c hc => .inl ?_
    have hmem := List.mem_map_of_mem (f := Candidate.address) hc
    rw [haddresses] at hmem
    exact List.mem_singleton.1 hmem
  | fallsBack p planned reported connection tried =>
    exact redirected_of_triedOut tried htarget h.candidates
  | passes planned reported hasked lingers =>
    rw [hasked, List.append_nil]
    refine ⟨htarget, fun c hc => ?_, fun p hp => h.attempt p (lingers.going p hp).1, ?_⟩
    · obtain ⟨p, hp⟩ := hsound.waiting (List.ne_nil_of_mem hc)
      exact h.candidates c ((lingers.going p hp).2 ▸ hc)
    · intro p ready ends hp
      rcases lingers.up p ready ends hp with ⟨hup, hpeer⟩ | hattempt
      · cases hc : u.before.transport.connection with
        | connected q r x =>
          rw [hc] at hpeer
          cases hpeer
          exact h.link p r x hc
        | _ => simp [hc, Connection.isConnected] at hup
      · exact h.attempt p hattempt

/-! ## Runs -/

variable {w : Endpoint (Logged ρ) σ}

theorem redirected_run (h : Redirected d t [] w.transport) (hsound : Sound s w.transport)
    (later : List (Step ρ σ))
    (hlater : ∀ st ∈ later, st.retargets = false ∧ st.chooses = false) :
    Redirected d t (askedIn (turns later w)) (w.runLogged later).transport := by
  induction later using List.reverseRecOn with
  | nil => exact h
  | append_singleton later st ih =>
    obtain ⟨u, hturns, rfl, hbefore, hafter⟩ := exists_last_turn later st w
    obtain ⟨hset, hchoice⟩ := hlater u.step (by simp)
    have hbefore' := ih fun v hv => hlater v (List.mem_append_left _ hv)
    rw [← hbefore] at hbefore'
    have hsound' : Sound s u.after.transport := by
      rw [hafter]
      exact sound_run hsound _
    have hnext := hbefore'.turn hsound' hset hchoice
    rw [hturns, ← hafter]
    simpa [askedIn] using hnext

omit [Radio ρ] [DeviceStore σ] in
/-- When the answer is no, the link that is up, if there is one, is to the new target. -/
theorem redirected_setTarget (w : Endpoint (Logged ρ) σ) {text : String}
    (hd : Address.parse? text = some d) (hno : (w.setTarget (some text)).1 = .ok false) :
    Redirected d w.transport [] (w.setTarget (some text)).2.transport := by
  obtain ⟨htarget, hcandidates, hconnection⟩ := setTarget_some w hd
  refine ⟨htarget, fun c hc => .inr (hcandidates ▸ hc), fun p hp => ?_, fun p ready ends hp => ?_⟩
  · exact .underway p (hconnection ▸ hp) rfl
  · obtain ⟨answer, hanswer, hiff⟩ := setTarget_answer w hd
    cases hanswer.symm.trans hno
    by_cases hp' : p = d
    · rw [hp']
      exact .target
    · cases hiff.2 ⟨p, ready, ends, hconnection ▸ hp, hp'⟩

/-- At any moment of any run a new target is answered with whether the link that is up is to another
address. If the answer is no, then whatever happens later, short of another target or a connect to an
address of the consumer's choice, a link that is up is to the target, unless it comes of the attempt
that was under way when the target was set, or of a candidate that was queued behind it. If no
attempt that was still wanted was under way, every link is to the target. -/
theorem links_after_setTarget {target : Option String} {radio : Logged ρ} {store : σ}
    (hw : create s target radio store = .ok w) (steps : List (Step ρ σ)) {text : String}
    (hd : Address.parse? text = some d) :
    let u := w.runLogged steps
    ∃ answer, (u.setTarget (some text)).1 = .ok answer ∧
      (answer = true ↔
        ∃ p ready ends, u.transport.connection = .connected p ready ends ∧ p ≠ d) ∧
      (answer = false → ∀ later : List (Step ρ σ),
        (∀ st ∈ later, st.retargets = false ∧ st.chooses = false) →
        ∀ p ready ends, ((u.setTarget (some text)).2.runLogged later).transport.connection =
            .connected p ready ends →
          MayLink d u.transport (askedIn (turns later (u.setTarget (some text)).2)) p ∧
          ((∀ q, u.transport.connection ≠ .connecting q false) → p = d)) := by
  intro u
  have hsound : Sound s u.transport := sound_run (sound_create hw) _
  obtain ⟨answer, hanswer, hiff⟩ := setTarget_answer u hd
  refine ⟨answer, hanswer, hiff, fun hno later hlater p ready ends hp => ?_⟩
  subst hno
  have hset : Sound s (u.setTarget (some text)).2.transport := hsound.act (.setTarget (some text))
  have hrun := redirected_run (redirected_setTarget u hd hanswer) hset later hlater
  have hmay := hrun.link p ready ends hp
  refine ⟨hmay, fun hnone => ?_⟩
  cases hmay with
  | target => rfl
  | underway _ hq => exact absurd hq (hnone p)
  | queued c hc =>
    rw [hsound.no_candidates hnone] at hc
    cases hc

/-- A target is set while nothing is under way. The next connect is for it, and so is the link. -/
theorem links_after_setTarget_of_idle :
    ∃ (w : Endpoint (Logged Radio.Simulated) Store.Memory)
      (later : List (Step Radio.Simulated Store.Memory)),
      create {} none ⟨{}, []⟩ {} = .ok w ∧
      Address.parse? "00:00:00:00:00:0B" = some ⟨0, 0, 0, 0, 0, 11⟩ ∧
      (∀ st ∈ later, st.retargets = false ∧ st.chooses = false) ∧
      let v := ((w.runLogged [.act .start]).setTarget (some "00:00:00:00:00:0B")).2.runLogged later
      v.isUp = true ∧
        ∀ p ready ends, v.transport.connection = .connected p ready ends →
          p = ⟨0, 0, 0, 0, 0, 11⟩ := by
  let radio : Logged Radio.Simulated := ⟨{}, []⟩
  let later : List (Step Radio.Simulated Store.Memory) := [.act (.connect none), .act .next]
  have hw : create {} none radio ({} : Store.Memory) = .ok _ := rfl
  have hd : Address.parse? "00:00:00:00:00:0B" = some ⟨0, 0, 0, 0, 0, 11⟩ := by decide
  have hlater : ∀ st ∈ later, st.retargets = false ∧ st.chooses = false := by
    intro st hst
    simp only [later, List.mem_cons, List.not_mem_nil, or_false] at hst
    rcases hst with rfl | rfl
    · exact ⟨rfl, rfl⟩
    · exact ⟨rfl, rfl⟩
  obtain ⟨answer, hanswer, -, hlinks⟩ := links_after_setTarget hw [.act .start] hd
  have hno : answer = false := Except.ok.inj (hanswer.symm.trans (by decide))
  refine ⟨_, later, hw, hd, hlater, by decide, fun p ready ends hp => ?_⟩
  exact (hlinks hno later hlater p ready ends hp).2 nofun

/-- The answer is no while an attempt at another address is under way, and that attempt is then
reported up. -/
theorem attempt_beyond_answer :
    ∃ (w : Endpoint (Logged Radio.Simulated) Store.Memory)
      (steps later : List (Step Radio.Simulated Store.Memory)),
      create {} none ⟨{ behaviour := { autoConnect := false } }, []⟩ {} = .ok w ∧
      Address.parse? "00:00:00:00:00:0B" = some ⟨0, 0, 0, 0, 0, 11⟩ ∧
      (∀ st ∈ later, ∃ e, st = .act (.handle e)) ∧
      ((w.runLogged steps).setTarget (some "00:00:00:00:00:0B")).1 = .ok false ∧
      (((w.runLogged steps).setTarget (some "00:00:00:00:00:0B")).2.runLogged
        later).transport.connection = .connected ⟨0, 0, 0, 0, 0, 10⟩ false false := by
  let radio : Logged Radio.Simulated := ⟨{ behaviour := { autoConnect := false } }, []⟩
  have hw : create {} none radio ({} : Store.Memory) = .ok _ := rfl
  refine ⟨_, [.act .start, .act (.connect (some ⟨0, 0, 0, 0, 0, 10⟩))],
    [.act (.handle .linkUp)], hw, by decide, ?_, by decide, by decide⟩
  simp

end Endpoint

end VehicleLink
