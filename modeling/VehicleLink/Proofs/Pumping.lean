import VehicleLink.Proofs.Effects
import VehicleLink.Radio.Simulated

/-!
# Pumps run to their end

`Pumped K w w'` says that a pump that begins in `w` may return in `w'`: it handles what waits and
sends what is due until neither is left. Between its turns the radio, the store and the clock may
change, the radio within `K`.

Over a radio that raises at most the events of an attempt, a discovery, a write or a disconnect, and
none on a call that it refuses (`Radio.Moderate`), every turn takes from the `workload`, whatever
the radio answers (`workload_handle`, `workload_drained`). So the turns that `pump` allows itself
are enough: it never stops halfway (`pumped_pump`). The simulated radio is such a radio.
-/

namespace VehicleLink

/-- A change of what is around the transport: the radio, the store or the clock. -/
def Step.isAmbient {ρ σ : Type} : Step ρ σ → Bool
  | .act (.wait _) => true
  | .act _ => false
  | .radio _ => true
  | .store _ => true

/-- A radio that changes by itself stays within `K`. -/
def Step.Within {ρ σ : Type} (K : ρ → Prop) : Step ρ σ → Prop
  | .radio f => ∀ r, K r → K (f r)
  | _ => True

/-! ## What a radio raises -/

/-- The most that the events raised on a call may weigh. -/
def Call.load : Call → Nat
  | .connect _ => 3
  | .disconnect => 1
  | .discover => 2
  | .write .. => 1
  | _ => 0

theorem Call.load_of_isScan {c : Call} (h : c.isScan = true) : c.load = 0 := by
  cases c with
  | scan window => rfl
  | stopScan => rfl
  | _ => cases h

theorem Event.weights_append (first later : List Event) :
    weights (first ++ later) = weights first + weights later := by
  induction first with
  | nil => simp [weights]
  | cons e first ih =>
    simp only [List.cons_append, weights, ih]
    omega

/-- A radio that raises no more than the load of a call, and nothing on a call that it refuses. -/
class Radio.Moderate (ρ : Type) [Radio ρ] : Prop where
  weights_raised_le (c : Call) (r : ρ) : Event.weights (Radio.submit c r).1.raised ≤ c.load
  raised_of_refused {c : Call} {r : ρ} (h : (Radio.submit c r).1.accepted = false) :
    (Radio.submit c r).1.raised = []

namespace Radio.Simulated

theorem weights_raised_le (c : Call) (r : Simulated) :
    Event.weights (Radio.submit c r).1.raised ≤ c.load := by
  rw [answer_eq]
  split
  · exact Nat.zero_le _
  · cases c <;> simp only [Behaviour.answer] <;> repeat' split
    all_goals simp [Event.weights, Event.weight, Call.load]

theorem raised_of_refused {c : Call} {r : Simulated}
    (h : (Radio.submit c r).1.accepted = false) : (Radio.submit c r).1.raised = [] := by
  rw [answer_eq] at h ⊢
  split
  · rfl
  · rename_i hlooked
    rw [if_neg hlooked] at h
    cases c with
    | connect a =>
      simp only [Behaviour.answer] at h ⊢
      repeat' split at h
      all_goals simp_all
    | scan window => cases h
    | stopScan => cases h
    | disconnect => cases h
    | discover => cases h
    | enableNotify k => rfl
    | write k bytes => cases h

instance : Moderate Simulated := ⟨weights_raised_le, raised_of_refused⟩

end Radio.Simulated

namespace Endpoint

/-- A pump that begins in the first endpoint may return in the second. -/
inductive Pumped {ρ σ : Type} [Radio ρ] [DeviceStore σ] (K : ρ → Prop) :
    Endpoint ρ σ → Endpoint ρ σ → Prop
  | done {w : Endpoint ρ σ} (empty : w.inbox = []) (idle : w.drain.1 = false) :
      Pumped K w w.drain.2
  | event {w w' : Endpoint ρ σ} (e : Event) (rest : List Event) (waiting : w.inbox = e :: rest)
      (later : Pumped K (({ w with inbox := rest }).handle e) w') : Pumped K w w'
  | fragment {w w' : Endpoint ρ σ} (empty : w.inbox = []) (sent : w.drain.1 = true)
      (later : Pumped K w.drain.2 w') : Pumped K w w'
  | meanwhile {w w' : Endpoint ρ σ} (s : Step ρ σ) (ambient : s.isAmbient = true)
      (within : s.Within K) (later : Pumped K (w.step s) w') : Pumped K w w'

variable {ρ σ : Type} [Radio ρ] [Radio.Moderate ρ] {w w' : Endpoint ρ σ}

/-! ## What a call adds -/

theorem weights_submit_le (c : Call) (w : Endpoint ρ σ) :
    Event.weights (w.submit c).2.inbox ≤ Event.weights w.inbox + c.load := by
  have hraised := Radio.Moderate.weights_raised_le c w.radio
  show Event.weights (w.inbox ++ (Radio.submit c w.radio).1.raised) ≤ _
  rw [Event.weights_append]
  omega

theorem inbox_of_refused {c : Call} (h : (w.submit c).1 = false) :
    (w.submit c).2.inbox = w.inbox := by
  show w.inbox ++ (Radio.submit c w.radio).1.raised = _
  rw [Radio.Moderate.raised_of_refused h, List.append_nil]

/-- An operation of which the only call is `c` adds at most what `c` may. -/
theorem weights_of_air {c : Call} (h : w'.air = (w.submit c).2.air) :
    Event.weights w'.inbox ≤ Event.weights w.inbox + c.load := by
  rw [show w'.inbox = (w.submit c).2.inbox from congrArg Prod.snd h]
  exact weights_submit_le c w

theorem Asks.weights_le (h : Asks (fun c => c.isScan = true) w w') :
    Event.weights w'.inbox ≤ Event.weights w.inbox := by
  refine h.induction (K := fun _ i => Event.weights i ≤ Event.weights w.inbox) ?_ (Nat.le_refl _)
  intro c r i hc hi
  have hraised := Radio.Moderate.weights_raised_le c r
  rw [Call.load_of_isScan hc] at hraised
  rw [Event.weights_append]
  omega

/-! ## What a turn takes -/

theorem Aside.workload_le (h : Aside w w') : w'.workload ≤ w.workload := by
  have hweights := h.asks.weights_le
  unfold workload
  rw [h.link.candidates, h.link.outbound]
  omega

/-- A drain that sends takes from the workload, and none adds to it. -/
theorem workload_drained {sent : Bool} (h : Drained w sent w') :
    w'.workload + sent.toNat ≤ w.workload := by
  cases h with
  | idle => exact Nat.le_refl _
  | sent fragment queue ready next taken air now course outbound =>
    obtain ⟨-, hsome, -, rfl⟩ := FragmentQueue.next?_eq_some next
    have hweights := weights_of_air air
    have hlimit := w.transport.outbound.queue.limit_pos
    have hlength := List.length_pos_iff.2 hsome
    unfold workload FragmentQueue.queued
    rw [course.candidates, outbound]
    show _ + 2 * (w.transport.outbound.queue.bytes.drop _).length + 1 ≤ _
    simp only [Call.load] at hweights
    rw [List.length_drop]
    omega
  | refused fragment queue ready next refused air now course outbound =>
    have hinbox : w'.inbox = w.inbox :=
      (show w'.inbox = (w.submit _).2.inbox from congrArg Prod.snd air).trans
        (inbox_of_refused refused)
    unfold workload FragmentQueue.queued
    rw [course.candidates, outbound, hinbox]
    show _ + 2 * 0 + 0 ≤ _
    omega

theorem workload_drain_le (w : Endpoint ρ σ) : w.drain.2.workload ≤ w.workload :=
  Nat.le_trans (Nat.le_add_right _ _) (workload_drained (drained_drain w))

theorem workload_tryCandidates_le (cs : List Candidate)
    (hw : w.transport.connection = .disconnected) :
    (tryCandidates cs w).workload ≤ (w.queueing cs).workload := by
  induction cs generalizing w with
  | nil => exact Nat.le_refl _
  | cons c rest ih =>
    have hasked : Event.weights (w.attempt c rest).2.inbox ≤ Event.weights w.inbox + 3 :=
      weights_submit_le (.connect c.address) _
    have htried : Event.weights (w.attempt c rest).2.inbox + 4 * rest.length +
        2 * w.transport.outbound.queue.queued ≤ (w.queueing (c :: rest)).workload := by
      show _ ≤ Event.weights w.inbox + 4 * (rest.length + 1) +
        2 * w.transport.outbound.queue.queued
      omega
    rw [tryCandidates_cons hw]
    split
    · exact htried
    · exact Nat.le_trans (ih (w := w.turnedAway c rest) hw) htried

omit [Radio ρ] [Radio.Moderate ρ] in
theorem workload_le {n : Nat} (inbox : Event.weights w'.inbox ≤ Event.weights w.inbox + n)
    (candidates : w'.transport.candidates.length ≤ w.transport.candidates.length)
    (queued : w'.transport.outbound.queue.queued ≤ w.transport.outbound.queue.queued) :
    w'.workload ≤ w.workload + n := by
  unfold workload
  omega

theorem workload_linkUp_le (h : LinkUpDone w w') : w'.workload ≤ w.workload + 2 := by
  cases h with
  | unexpected => exact Nat.le_add_right _ _
  | cancelled p hc traffic connection candidates air now =>
    have hended := weights_of_air air
    simp only [Call.load] at hended
    refine workload_le (by omega) (Nat.le_of_eq ?_) (Nat.le_of_eq ?_)
    · rw [candidates]
    · rw [traffic.outbound]
  | @kept u p hc opened taken =>
    have hopened := opened.asks.weights_le
    have hasked := weights_submit_le .discover u
    simp only [Call.load] at hasked
    refine workload_le (by omega) ?_ ?_
    · show u.transport.candidates.length ≤ _
      rw [opened.candidates]
      exact Nat.zero_le _
    · show u.transport.outbound.queue.queued ≤ _
      rw [opened.outbound]
      exact Nat.zero_le _
  | @dropped u _ p hc opened refused dropped =>
    have hopened := opened.asks.weights_le
    have hended := weights_of_air dropped.air
    rw [inbox_of_refused refused] at hended
    simp only [Call.load] at hended
    refine workload_le (by omega) ?_ ?_
    · rw [dropped.candidates]
      show u.transport.candidates.length ≤ _
      rw [opened.candidates]
      exact Nat.zero_le _
    · rw [dropped.traffic.outbound]
      show u.transport.outbound.queue.queued ≤ _
      rw [opened.outbound]
      exact Nat.zero_le _

theorem workload_linkDown_le (h : LinkDownDone w w') : w'.workload ≤ w.workload := by
  cases h with
  | ignored => exact Nat.le_refl _
  | failed p hc =>
    let v := w.gone.update (Transport.noteError (.connectFailed p))
    refine Nat.le_trans (workload_tryCandidates_le (w := v) _ rfl) ?_
    exact workload_le (n := 0) (Nat.le_refl _) (Nat.le_refl _) (Nat.zero_le _)
  | cancelled p hc => exact workload_le (n := 0) (Nat.le_refl _) (Nat.zero_le _) (Nat.zero_le _)
  | lost p ready hc => exact workload_le (n := 0) (Nat.le_refl _) (Nat.le_refl _) (Nat.zero_le _)
  | closed p ready hc => exact workload_le (n := 0) (Nat.le_refl _) (Nat.le_refl _) (Nat.zero_le _)

theorem workload_dropped_le {p : Address} (h : Dropped p w w') :
    w'.workload ≤ w.workload + 1 := by
  refine workload_le (weights_of_air h.air) (Nat.le_of_eq ?_) (Nat.le_of_eq ?_)
  · rw [h.candidates]
  · rw [h.traffic.outbound]

theorem workload_discovered_le {success : Bool} (h : DiscoveredDone success w w') :
    w'.workload ≤ w.workload + 1 := by
  have hasked : (w.submit (.enableNotify .notify)).2.workload ≤ w.workload :=
    workload_le (n := 0) (weights_submit_le _ w) (Nat.le_refl _) (Nat.le_refl _)
  cases h with
  | ignored => exact Nat.le_add_right _ _
  | ready p r hc taken =>
    have hdrain := workload_drain_le (w.submit (.enableNotify .notify)).2.readied
    exact Nat.le_trans hdrain (Nat.le_succ_of_le hasked)
  | refused p r hc refused dropped =>
    exact Nat.le_trans (workload_dropped_le dropped) (Nat.add_le_add_right hasked 1)
  | failed p r hc dropped => exact workload_dropped_le dropped

theorem workload_completed_le {success : Bool} (h : CompletedDone success w w') :
    w'.workload ≤ w.workload := by
  cases h with
  | unexpected => exact Nat.le_refl _
  | acknowledged hflight hs => exact workload_drain_le w.acknowledged
  | failed hflight hs air now course outbound =>
    have hinbox : w'.inbox = w.inbox := congrArg Prod.snd air
    refine workload_le (n := 0) (Nat.le_of_eq ?_) (Nat.le_of_eq ?_) ?_
    · rw [hinbox]
      rfl
    · rw [course.candidates]
    · rw [outbound]
      exact Nat.zero_le _

/-- The handling of an event adds less than the event weighs. -/
theorem workload_handle [DeviceStore σ] (e : Event) (w : Endpoint ρ σ) :
    (w.handle e).workload + 1 ≤ w.workload + e.weight := by
  cases e with
  | scanResult d => exact Nat.add_le_add_right (aside_onScanResult d w).workload_le 1
  | scanComplete => exact Nat.add_le_add_right (aside_onScanComplete w).workload_le 1
  | linkUp => exact Nat.add_le_add_right (workload_linkUp_le (linkUpDone_onLinkUp w)) 1
  | linkDown => exact Nat.add_le_add_right (workload_linkDown_le (linkDownDone_onLinkDown w)) 1
  | servicesDiscovered success =>
    exact Nat.add_le_add_right
      (workload_discovered_le (discoveredDone_onServicesDiscovered success w)) 1
  | writeComplete success =>
    exact Nat.add_le_add_right (workload_completed_le (completedDone_onWriteComplete success w)) 1
  | received fragment =>
    obtain ⟨inbound, heq⟩ := onReceived_eq fragment w
    rw [Endpoint.handle, heq]
    exact Nat.le_refl _

/-- A turn that handles the next event takes from the workload. -/
theorem workload_next [DeviceStore σ] {e : Event} {rest : List Event}
    (h : w.inbox = e :: rest) :
    (({ w with inbox := rest }).handle e).workload + 1 ≤ w.workload := by
  have hhandled := workload_handle e { w with inbox := rest }
  have hsplit : w.workload = ({ w with inbox := rest } : Endpoint ρ σ).workload + e.weight := by
    unfold workload
    rw [h, Event.weights]
    dsimp only
    omega
  omega

/-! ## Pumps -/

/-- Turns that exceed the workload are enough. -/
theorem pumped_pumpUpTo [DeviceStore σ] {K : ρ → Prop} (turns : Nat)
    (w : Endpoint ρ σ) (h : w.workload < turns) : Pumped K w (w.pumpUpTo turns).2 := by
  induction turns generalizing w with
  | zero => exact absurd h (Nat.not_lt_zero _)
  | succ turns ih =>
    cases hinbox : w.inbox with
    | cons e rest =>
      have hturn := workload_next hinbox
      have hlater := ih (({ w with inbox := rest }).handle e) (by omega)
      rw [pumpUpTo, hinbox]
      exact .event e rest hinbox hlater
    | nil =>
      rw [pumpUpTo, hinbox]
      rcases hd : w.drain with ⟨sent, w'⟩
      have hw : w.drain.2 = w' := congrArg Prod.snd hd
      have hsent : w.drain.1 = sent := congrArg Prod.fst hd
      cases sent with
      | true =>
        have hdrained := workload_drained (drained_drain w)
        rw [hsent, hw, Bool.toNat_true] at hdrained
        refine .fragment hinbox hsent ?_
        rw [hw]
        exact ih w' (by omega)
      | false => exact hw ▸ .done hinbox hsent

/-- A pump over such a radio returns when nothing waits and nothing is due, and not before. -/
theorem pumped_pump [DeviceStore σ] {K : ρ → Prop} (w : Endpoint ρ σ) :
    Pumped K w w.pump.2 := pumped_pumpUpTo _ w (Nat.lt_succ_self _)

end Endpoint

end VehicleLink
