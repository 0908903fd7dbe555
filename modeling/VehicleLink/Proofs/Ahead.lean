import VehicleLink.Proofs.Run

/-!
# Events that wait ahead

No operation looks at the events that wait to be handled: it adds those that its calls raise behind
them. So it does the same with other events ahead in the inbox, and leaves them there
(`act_ahead`, `handle_ahead`); only handling the next event takes one.
-/

namespace VehicleLink.Endpoint

variable {ρ σ : Type} (p : List Event) (w : Endpoint ρ σ)

/-- The endpoint with other events ahead in the inbox. -/
def ahead : Endpoint ρ σ := { w with inbox := p ++ w.inbox }

@[simp] theorem transport_ahead : (w.ahead p).transport = w.transport := rfl

@[simp] theorem radio_ahead : (w.ahead p).radio = w.radio := rfl

@[simp] theorem now_ahead : (w.ahead p).now = w.now := rfl

@[simp] theorem update_ahead (f : Transport → Transport) :
    (w.ahead p).update f = (w.update f).ahead p := rfl

@[simp] theorem persist_ahead [DeviceStore σ] : (w.ahead p).persist = w.persist.ahead p := rfl

/-- A choice between two endpoints with the same events ahead. -/
@[simp] theorem ite_ahead (c : Prop) [Decidable c] (u v : Endpoint ρ σ) :
    (if c then u.ahead p else v.ahead p) = (if c then u else v).ahead p :=
  (apply_ite (ahead p) c u v).symm

variable [Radio ρ]

/-! ## Calls -/

@[simp] theorem submit_ahead (c : Call) :
    (w.ahead p).submit c = ((w.submit c).1, (w.submit c).2.ahead p) := by
  simp [submit, ahead]

@[simp] theorem issue_ahead (c : Call) : (w.ahead p).issue c = (w.issue c).ahead p := by
  simp [issue]

@[simp] theorem beginScan_ahead : (w.ahead p).beginScan = w.beginScan.ahead p := by
  simp [beginScan]

@[simp] theorem endScan_ahead : (w.ahead p).endScan = w.endScan.ahead p := by
  simp [endScan]

@[simp] theorem dropLink_ahead : (w.ahead p).dropLink = w.dropLink.ahead p := by
  simp [dropLink]

@[simp] theorem disconnect_ahead : (w.ahead p).disconnect = w.disconnect.ahead p := by
  simp only [disconnect, update_ahead, transport_ahead]
  split
  · rfl
  · rw [issue_ahead]

theorem stop_ahead : (w.ahead p).stop = w.stop.ahead p := by
  cases hrun : w.transport.running with
  | true => simp [stop, halt, hrun, forgetScan]
  | false => simp [stop, halt, hrun]

/-! ## Sending and reading -/

theorem send_ahead (fragment : List UInt8) (queue : FragmentQueue) :
    (w.ahead p).send fragment queue =
      ((w.send fragment queue).1, (w.send fragment queue).2.ahead p) := by
  simp only [send, update_ahead, submit_ahead, now_ahead]
  split <;> rfl

@[simp] theorem drain_ahead : (w.ahead p).drain = (w.drain.1, w.drain.2.ahead p) := by
  rw [drain_eq, drain_eq w, transport_ahead, now_ahead]
  cases w.transport.connection.isReady && w.transport.outbound.isDue w.now with
  | false => rfl
  | true =>
    cases w.transport.outbound.queue.next? with
    | none => rfl
    | some cut => exact send_ahead p w cut.1 cut.2

theorem write_ahead (bytes : List UInt8) :
    (w.ahead p).write bytes = ((w.write bytes).1, (w.write bytes).2.ahead p) := by
  unfold write
  dsimp only
  rw [transport_ahead]
  cases w.transport.connection.isConnected with
  | false => rfl
  | true =>
    cases w.transport.outbound.failed with
    | true => rfl
    | false =>
      cases w.transport.outbound.queue.enqueue bytes with
      | error e => rfl
      | ok queue => simp

omit [Radio ρ] in
theorem read_ahead (n : Nat) :
    (w.ahead p).read n = ((w.read n).1, (w.read n).2.ahead p) := by
  unfold Endpoint.read
  rw [transport_ahead]
  split <;> rfl

omit [Radio ρ] in
theorem setTarget_ahead (target : Option String) :
    (w.ahead p).setTarget target = ((w.setTarget target).1, (w.setTarget target).2.ahead p) := by
  unfold setTarget
  split <;> rfl

/-! ## Attempts -/

@[simp] theorem tryCandidates_ahead (cs : List Candidate) :
    tryCandidates cs (w.ahead p) = (tryCandidates cs w).ahead p := by
  induction cs generalizing w with
  | nil => rfl
  | cons c rest ih =>
    simp only [tryCandidates, update_ahead, transport_ahead, submit_ahead, ih]
    split
    · rfl
    · split
      · split <;> rfl
      · rfl

variable [DeviceStore σ]

theorem rankCandidates_ahead : (w.ahead p).rankCandidates = w.rankCandidates.ahead p := by
  unfold rankCandidates
  dsimp only
  rw [transport_ahead, radio_ahead, update_ahead, persist_ahead, ite_ahead, update_ahead,
    transport_ahead, beginScan_ahead, ite_ahead, update_ahead]

theorem follow_ahead (plan : Reconnect.Plan) :
    (w.ahead p).follow plan = (w.follow plan).ahead p := by
  cases plan with
  | rank => exact rankCandidates_ahead p w
  | target a => rfl
  | idle => rfl

theorem connectBody_ahead (target : Option Address) :
    (w.ahead p).connectBody target = (w.connectBody target).ahead p := by
  simp [connectBody, follow_ahead, attemptNext]

theorem connect_ahead (target : Option Address) :
    (w.ahead p).connect target = (w.connect target).ahead p := by
  simp [connect, connectBody_ahead]

omit [Radio ρ] [DeviceStore σ] in
theorem claimPoll_ahead (instant : Nanos) :
    (w.ahead p).claimPoll instant =
      ((w.claimPoll instant).1, (w.claimPoll instant).2.ahead p) := by
  unfold claimPoll
  rw [transport_ahead]
  cases w.transport.isBusy with
  | true => rfl
  | false => cases w.transport.policy.isDue instant <;> rfl

theorem pollAt_ahead (instant : Nanos) :
    (w.ahead p).pollAt instant = (w.pollAt instant).ahead p := by
  simp [pollAt, claimPoll_ahead, connect_ahead]

/-! ## Reports -/

omit [Radio ρ] in
theorem onScanResult_ahead (d : Device) :
    (w.ahead p).onScanResult d = (w.onScanResult d).ahead p := by
  unfold onScanResult
  dsimp only
  rw [update_ahead, transport_ahead, update_ahead, persist_ahead, ite_ahead, update_ahead]

theorem onEstablished_ahead (peer : Address) :
    (w.ahead p).onEstablished peer = (w.onEstablished peer).ahead p := by
  unfold onEstablished
  dsimp only
  rw [update_ahead, transport_ahead, update_ahead, persist_ahead, ite_ahead, endScan_ahead,
    update_ahead, submit_ahead, dropLink_ahead, ite_ahead]

theorem onLinkUp_ahead : (w.ahead p).onLinkUp = w.onLinkUp.ahead p := by
  unfold onLinkUp
  rw [transport_ahead]
  cases w.transport.connection.up with
  | error e => rfl
  | ok moved =>
    obtain ⟨outcome, connection⟩ := moved
    cases outcome with
    | established peer => simp [onEstablished_ahead]
    | cancelled peer => simp

theorem onLinkDown_ahead : (w.ahead p).onLinkDown = w.onLinkDown.ahead p := by
  simp only [onLinkDown, transport_ahead, update_ahead, attemptNext, tryCandidates_ahead]
  split <;> rfl

omit [DeviceStore σ] in
theorem onServicesDiscovered_ahead (success : Bool) :
    (w.ahead p).onServicesDiscovered success = (w.onServicesDiscovered success).ahead p := by
  unfold onServicesDiscovered
  dsimp only
  rw [transport_ahead, submit_ahead, update_ahead, drain_ahead, dropLink_ahead, dropLink_ahead,
    ite_ahead, ite_ahead, ite_ahead]

omit [DeviceStore σ] in
theorem onWriteComplete_ahead (success : Bool) :
    (w.ahead p).onWriteComplete success = (w.onWriteComplete success).ahead p := by
  unfold onWriteComplete
  dsimp only
  rw [transport_ahead]
  split
  · rfl
  · rw [update_ahead, drain_ahead, ite_ahead]
  · rfl

omit [Radio ρ] [DeviceStore σ] in
theorem onReceived_ahead (fragment : List UInt8) :
    (w.ahead p).onReceived fragment = (w.onReceived fragment).ahead p := by
  unfold onReceived
  rw [transport_ahead, update_ahead, ite_ahead]

theorem handle_ahead (e : Event) : (w.ahead p).handle e = (w.handle e).ahead p := by
  cases e with
  | scanResult d => exact onScanResult_ahead p w d
  | scanComplete => rfl
  | linkUp => exact onLinkUp_ahead p w
  | linkDown => exact onLinkDown_ahead p w
  | servicesDiscovered success => exact onServicesDiscovered_ahead p w success
  | writeComplete success => exact onWriteComplete_ahead p w success
  | received fragment => exact onReceived_ahead p w fragment

/-! ## Actions -/

/-- Every action other than handling the next event does the same with events ahead. -/
theorem act_ahead {a : Action} (ha : a ≠ .next) : (w.ahead p).act a = (w.act a).ahead p := by
  cases a with
  | start => rfl
  | stop => exact stop_ahead p w
  | connect target => exact connect_ahead p w target
  | disconnect => exact disconnect_ahead p w
  | pollAt instant => exact pollAt_ahead p w instant
  | startScan => exact beginScan_ahead p w
  | write bytes => exact congrArg Prod.snd (write_ahead p w bytes)
  | read n => exact congrArg Prod.snd (read_ahead p w n)
  | setTarget target => exact congrArg Prod.snd (setTarget_ahead p w target)
  | drainDue => exact congrArg Prod.snd (drain_ahead p w)
  | handle e => exact handle_ahead p w e
  | next => exact absurd rfl ha
  | raise e => simp [act, raise, ahead]
  | wait d => rfl

/-- So does every step other than it. -/
theorem step_ahead {s : Step ρ σ} (hs : s ≠ .act .next) :
    (w.ahead p).step s = (w.step s).ahead p := by
  cases s with
  | act a => exact act_ahead p w fun ha => hs (ha ▸ rfl)
  | radio f => rfl
  | store f => rfl

/-- The next event is the first of those ahead. -/
theorem handleNext_ahead (e : Event) : (w.ahead (e :: p)).handleNext = (w.handle e).ahead p :=
  (handleNext_cons rfl).trans (handle_ahead p w e)

end VehicleLink.Endpoint
