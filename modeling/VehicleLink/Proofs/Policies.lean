import VehicleLink.Proofs.Surroundings

/-!
# What changes the policy

The policy of a transport is changed by a new target, by a poll that is due, which notes its
instant, and by the reports that turn fast polling on or off. Everything else leaves it
(`policy_act`, `policy_handle`).

A search reads nothing of the policy but the plan, so it is the same search under another policy
that plans the same: a poll that is due is a connect whose instant is noted (`pollAt_eq_noting`).
-/

namespace VehicleLink

namespace Endpoint

variable {ρ σ : Type}

def policy (w : Endpoint ρ σ) : Reconnect.Policy := w.transport.policy

/-- The same endpoint with another policy. -/
def underPolicy (p : Reconnect.Policy) (w : Endpoint ρ σ) : Endpoint ρ σ :=
  w.update fun t => { t with policy := p }

/-- The same endpoint with an attempt noted. -/
def noting (instant : Nanos) (w : Endpoint ρ σ) : Endpoint ρ σ :=
  w.underPolicy (w.policy.recordAttempt instant)

section

variable (p : Reconnect.Policy) (w : Endpoint ρ σ)

@[simp] theorem policy_underPolicy : (w.underPolicy p).policy = p := rfl

theorem underPolicy_self : w.underPolicy w.policy = w := rfl

theorem ite_underPolicy (c : Prop) [Decidable c] (u v : Endpoint ρ σ) :
    (if c then u.underPolicy p else v.underPolicy p) = (if c then u else v).underPolicy p :=
  (apply_ite (underPolicy p) c u v).symm

variable [Radio ρ]

/-! ## Searching -/

/-- Attempts are the same under any policy. -/
theorem tryCandidates_underPolicy (cs : List Candidate)
    (hw : w.transport.connection = .disconnected) :
    tryCandidates cs (w.underPolicy p) = (tryCandidates cs w).underPolicy p := by
  induction cs generalizing w with
  | nil => rfl
  | cons c rest ih =>
    rw [tryCandidates_cons hw, tryCandidates_cons (w := w.underPolicy p) hw, ← ite_underPolicy,
      ← ih (w.turnedAway c rest) hw]
    rfl

variable [DeviceStore σ]

theorem rankCandidates_underPolicy :
    (w.underPolicy p).rankCandidates = w.rankCandidates.underPolicy p := by
  rw [rankCandidates_eq_listing, rankCandidates_eq_listing w]
  change (if _ then w.listing.beginScan.underPolicy p else w.listing.underPolicy p).queueing _ = _
  rw [ite_underPolicy]
  rfl

/-- A search is the same under a policy that plans the same. -/
theorem connectBody_underPolicy {p : Reconnect.Policy} {w : Endpoint ρ σ}
    (hw : w.transport.connection = .disconnected)
    (hplan : ∀ last, p.plan last = w.policy.plan last) (target : Option Address) :
    (w.underPolicy p).connectBody target = (w.connectBody target).underPolicy p := by
  have hsame : planFor target (w.underPolicy p).transport = planFor target w.transport := by
    cases target with
    | some a => rfl
    | none => exact hplan _
  have hfollow (plan : Reconnect.Plan) :
      ((w.underPolicy p).queueing []).follow plan =
        ((w.queueing []).follow plan).underPolicy p := by
    cases plan with
    | rank => exact rankCandidates_underPolicy p (w.queueing [])
    | _ => rfl
  have hstill (plan : Reconnect.Plan) :
      ((w.queueing []).follow plan).transport.connection = .disconnected := by
    obtain ⟨u, hu, heq⟩ := follow_eq plan w
    rw [heq]
    exact hu.link.connection.trans hw
  rw [connectBody_of_disconnected hw, connectBody_of_disconnected (w := w.underPolicy p) hw, hsame,
    hfollow]
  exact tryCandidates_underPolicy p _ _ (hstill _)

/-- A search looks at the policy for the plan, and leaves it. -/
theorem policy_connectBody (target : Option Address) :
    (w.connectBody target).policy = w.policy := by
  by_cases hbusy : w.transport.isBusy = true
  · rw [connectBody_of_busy hbusy]
  · have hw := disconnected_of_not_busy hbusy
    rw [← underPolicy_self w, connectBody_underPolicy hw fun _ => rfl]
    rfl

theorem policy_connect (target : Option Address) : (w.connect target).policy = w.policy := by
  unfold connect
  split
  · exact policy_connectBody w target
  · rfl

/-! ## Polling -/

/-- A poll that is due notes its instant, before the connect or after it. -/
theorem pollAt_eq_noting {instant : Nanos} {w : Endpoint ρ σ} (h : w.pollDue instant = true) :
    w.pollAt instant = (w.connect none).noting instant := by
  obtain ⟨hrun, hw, -⟩ := pollDue_iff.1 h
  rw [pollAt_of_due h]
  change (w.noting instant).connect none = _
  have hplan (last : Option Address) :
      (w.policy.recordAttempt instant).plan last = w.policy.plan last := rfl
  rw [connect_of_running hrun, connect_of_running (w := w.noting instant) hrun, noting, noting,
    connectBody_underPolicy hw hplan, policy_connectBody]

theorem policy_pollAt (instant : Nanos) :
    (w.pollAt instant).policy =
      if w.pollDue instant then w.policy.recordAttempt instant else w.policy := by
  cases h : w.pollDue instant with
  | true =>
    rw [pollAt_eq_noting h, noting, policy_underPolicy, policy_connect]
    rfl
  | false =>
    rw [pollAt_of_not_due h]
    rfl

end

/-! ## What leaves the policy -/

section

variable [Radio ρ] (w : Endpoint ρ σ)

theorem policy_tryCandidates (cs : List Candidate) (hw : w.transport.connection = .disconnected) :
    (tryCandidates cs w).policy = w.policy := by
  rw [← underPolicy_self w, tryCandidates_underPolicy _ w cs hw]
  rfl

theorem policy_disconnect : w.disconnect.policy = w.policy := by
  unfold disconnect
  dsimp only
  split <;> rfl

theorem policy_stop : w.stop.policy = w.policy := by
  unfold stop halt
  dsimp only
  split
  · exact policy_disconnect _
  · rfl

theorem policy_drain : w.drain.2.policy = w.policy := by
  have hsend (fragment : List UInt8) (queue : FragmentQueue) :
      (w.send fragment queue).2.policy = w.policy := by
    unfold send
    dsimp only
    split <;> rfl
  rw [drain_eq]
  split
  · split
    · exact hsend _ _
    · rfl
  · rfl

theorem policy_write (bytes : List UInt8) : (w.write bytes).2.policy = w.policy := by
  have hwrite := answered_write bytes w
  generalize (w.write bytes).1 = ok, (w.write bytes).2 = w' at hwrite ⊢
  cases hwrite with
  | @accepted queue => exact policy_drain (w.withQueue queue)
  | _ => rfl

omit [Radio ρ] in
/-- A text that is no address is no target. -/
theorem policy_setTarget (target : Option String) :
    (w.setTarget target).2.policy = w.policy ∨
      ∃ next linked, (w.setTarget target).2.policy = w.policy.retarget next linked := by
  unfold setTarget
  split
  · exact .inl rfl
  · exact .inr ⟨_, _, rfl⟩

/-- Of what a consumer does, only a new target and a poll that is due change the policy. -/
theorem policy_act [DeviceStore σ] {a : Action} (ha : a.byConsumer = true)
    (htarget : ∀ target, a ≠ .setTarget target) (hpoll : ∀ instant, a ≠ .pollAt instant) :
    (w.act a).policy = w.policy := by
  cases a with
  | stop => exact policy_stop w
  | connect target => exact policy_connect w target
  | disconnect => exact policy_disconnect w
  | write bytes => exact policy_write w bytes
  | read n =>
    obtain ⟨inbound, heq⟩ := read_eq n w
    rw [act, heq]
    rfl
  | drainDue => exact policy_drain w
  | setTarget target => exact absurd rfl (htarget target)
  | pollAt instant => exact absurd rfl (hpoll instant)
  | handle e => cases ha
  | next => cases ha
  | raise e => cases ha
  | _ => rfl

end

/-! ## Reports -/

section

variable (w : Endpoint ρ σ)

theorem policy_onScanResult [DeviceStore σ] (d : Device) :
    (w.onScanResult d).policy = w.policy := by
  unfold onScanResult
  dsimp only
  split <;> rfl

theorem policy_onScanComplete :
    w.onScanComplete.policy = w.policy ∨
      w.onScanComplete.policy = { w.policy with fast := true } := by
  unfold onScanComplete update policy
  dsimp only
  split
  · exact .inr rfl
  · exact .inl rfl

theorem policy_onReceived (fragment : List UInt8) : (w.onReceived fragment).policy = w.policy := by
  obtain ⟨inbound, heq⟩ := onReceived_eq fragment w
  rw [heq]
  rfl

variable [Radio ρ]

theorem policy_onWriteComplete (success : Bool) :
    (w.onWriteComplete success).policy = w.policy := by
  unfold onWriteComplete
  dsimp only
  split
  · rfl
  · split
    · exact policy_drain _
    · rfl
  · rfl

/-- Services that cannot be had make the link be dropped and polling fast. -/
theorem policy_onServicesDiscovered (success : Bool) :
    (w.onServicesDiscovered success).policy = { w.policy with fast := true } ∨
      (w.onServicesDiscovered success).policy = w.policy ∧
        (w.onServicesDiscovered success).transport.connection.teardownRequested =
          w.transport.connection.teardownRequested := by
  unfold onServicesDiscovered
  dsimp only
  split
  · exact .inr ⟨rfl, rfl⟩
  · split
    · split
      · refine .inr ⟨policy_drain _, ?_⟩
        rw [(drained_drain _).course.connection]
        change w.transport.connection.markReady.teardownRequested = _
        cases w.transport.connection <;> rfl
      · exact .inl rfl
    · exact .inl rfl

variable [DeviceStore σ]

omit [Radio ρ] in
theorem policy_greeting (p : Address) :
    (w.greeting p).policy = { w.policy with fast := false } := by
  unfold greeting
  dsimp only
  split <;> rfl

theorem policy_opening (p : Address) : (w.opening p).policy = { w.policy with fast := false } := by
  rw [← policy_greeting w p]
  change (w.greeting p).endScan.policy = _
  unfold endScan
  split <;> rfl

/-- A link that came up ends fast polling, unless it has to be dropped at once. -/
theorem policy_onLinkUp_of_wanted {p : Address} {w : Endpoint ρ σ}
    (hc : w.transport.connection = .connecting p false) :
    w.onLinkUp.policy =
      { w.policy with fast := w.onLinkUp.transport.connection.teardownRequested } := by
  have hopened := (opened_opening p w).connection
  rw [onLinkUp_of_wanted hc]
  split
  · change (w.opening p).policy =
      { w.policy with fast := (w.opening p).transport.connection.teardownRequested }
    rw [policy_opening, hopened]
    rfl
  · have hdropped := dropped_dropLink (w := ((w.opening p).submit .discover).2) hopened
    rw [hdropped.connection]
    change ({ (w.opening p).policy with fast := true } : Reconnect.Policy) = _
    rw [policy_opening]
    rfl

theorem policy_onLinkUp_of_unwanted {w : Endpoint ρ σ}
    (h : ∀ p, w.transport.connection ≠ .connecting p false) : w.onLinkUp.policy = w.policy := by
  unfold onLinkUp
  cases hc : w.transport.connection with
  | disconnected => rfl
  | connected p ready teardown => rfl
  | connecting p teardown =>
    cases teardown with
    | true => rfl
    | false => exact absurd hc (h p)

/-- A link that is lost makes polling fast, one that was to end does not. -/
theorem policy_onLinkDown :
    w.onLinkDown.policy = { w.policy with fast := true } ∨
      w.onLinkDown.policy = w.policy ∧
        (w.isUp = true → w.transport.connection.teardownRequested = true) := by
  have hdown := linkDownDone_onLinkDown w
  generalize w.onLinkDown = w' at hdown ⊢
  cases hdown with
  | ignored h => exact .inr ⟨rfl, by simp [isUp, h, Connection.isConnected]⟩
  | failed p h =>
    refine .inr ⟨policy_tryCandidates _ _ rfl, by simp [isUp, h, Connection.isConnected]⟩
  | cancelled p h => exact .inr ⟨rfl, by simp [isUp, h, Connection.isConnected]⟩
  | lost p ready h => exact .inl rfl
  | closed p ready h => exact .inr ⟨rfl, fun _ => by rw [h]; rfl⟩

/-- A report changes nothing of the policy but whether polling is fast. -/
theorem policy_handle (e : Event) : ∃ fast, (w.handle e).policy = { w.policy with fast } := by
  cases e with
  | scanResult d => exact ⟨_, policy_onScanResult w d⟩
  | scanComplete =>
    rcases policy_onScanComplete w with h | h
    · exact ⟨_, h⟩
    · exact ⟨_, h⟩
  | linkUp =>
    by_cases hwanted : ∃ p, w.transport.connection = .connecting p false
    · obtain ⟨p, hc⟩ := hwanted
      exact ⟨_, policy_onLinkUp_of_wanted hc⟩
    · exact ⟨_, policy_onLinkUp_of_unwanted fun p hc => hwanted ⟨p, hc⟩⟩
  | linkDown =>
    rcases policy_onLinkDown w with h | ⟨h, -⟩
    · exact ⟨_, h⟩
    · exact ⟨_, h⟩
  | servicesDiscovered success =>
    rcases policy_onServicesDiscovered w success with h | ⟨h, -⟩
    · exact ⟨_, h⟩
    · exact ⟨_, h⟩
  | writeComplete success => exact ⟨_, policy_onWriteComplete w success⟩
  | received fragment => exact ⟨_, policy_onReceived w fragment⟩

end

end Endpoint

end VehicleLink
