import VehicleLink.Proofs.Cancellation
import VehicleLink.Proofs.Pacing

/-!
# Held-back fragments

Waiting and sending agree. At any instant there is nothing to send, or a fragment is held back until
an instant that the time to wait leads to, or a drain sends one, and of the three exactly one
(`exists_unique_stands`).

What is sendable is never left without a deadline (`held_back_not_forgotten`): an operation that tried
to send it found the deadline ahead, and any other operation leaves the deadline as it was
(`Leaves`).
-/

namespace VehicleLink

namespace Endpoint

variable {ρ σ : Type}

/-! ## The three cases -/

/-- The same endpoint at another instant. -/
def asOf (instant : Nanos) (w : Endpoint ρ σ) : Endpoint ρ σ := { w with now := instant }

/-- The link is ready, bytes are queued and no fragment is in flight. -/
def Sendable (w : Endpoint ρ σ) : Prop :=
  w.transport.connection.isReady = true ∧ w.transport.outbound.queue.bytes ≠ [] ∧
    w.transport.outbound.queue.inFlight = false

instance (w : Endpoint ρ σ) : Decidable w.Sendable := inferInstanceAs (Decidable (_ ∧ _ ∧ _))

/-- How it stands with the outbound bytes at an instant. -/
inductive Standing where
  /-- There is nothing to send. -/
  | idle
  /-- The delay holds a fragment back for so long. -/
  | held (remaining : Nanos)
  | due

theorem sendable_iff {w : Endpoint ρ σ} : w.Sendable ↔
    w.transport.connection.isReady = true ∧
      ∃ cut, w.transport.outbound.queue.next? = some cut := by
  refine and_congr_right fun _ => ?_
  cases hnext : w.transport.outbound.queue.next? with
  | none =>
    have h := FragmentQueue.next?_eq_none hnext
    simp only [reduceCtorEq, exists_false, iff_false, not_and]
    intro hbytes
    simpa using h.resolve_right hbytes
  | some cut =>
    obtain ⟨hflight, hbytes, -⟩ := FragmentQueue.next?_eq_some hnext
    simp [hflight, hbytes]

theorem Sendable.pacingRemaining {w : Endpoint ρ σ} (h : w.Sendable) :
    w.pacingRemaining =
      match w.notBefore with
      | some t => if w.now < t then some (t - w.now) else none
      | none => none := by
  obtain ⟨hready, hbytes, hflight⟩ := h
  rw [Endpoint.pacingRemaining, if_pos hready, Outbound.heldBack, if_neg]
  · rfl
  · simp [hbytes, hflight]

theorem pacingRemaining_of_not_sendable {w : Endpoint ρ σ} (h : ¬ w.Sendable) :
    w.pacingRemaining = none := by
  by_cases hready : w.transport.connection.isReady = true
  · rw [Endpoint.pacingRemaining, if_pos hready, Outbound.heldBack, if_pos]
    by_contra hqueue
    refine h ⟨hready, ?_⟩
    simpa using hqueue
  · rw [Endpoint.pacingRemaining, if_neg hready]

variable [Radio ρ]

/-- A drain changes nothing, and so makes no call. -/
def Withholds (w : Endpoint ρ σ) : Prop := w.drain = (false, w)

/-- A drain makes one call, which hands a fragment to the radio. -/
def SendsOne (w : Endpoint (Logged ρ) σ) : Prop :=
  ∃ fragment accepted, w.drain.2.radio.log = w.radio.log ++ [(.write .write fragment, accepted)]

/-- What each case says of an endpoint at an instant: how long it tells to wait, and what a drain
does at this instant and, where a fragment is held back, at all those until the deadline. -/
def Stands (w : Endpoint (Logged ρ) σ) (instant : Nanos) : Standing → Prop
  | .idle => ¬ w.Sendable ∧ (w.asOf instant).pacingRemaining = none ∧ (w.asOf instant).Withholds
  | .held remaining =>
    (w.asOf instant).pacingRemaining = some remaining ∧ 0 < remaining ∧
      (∀ later, instant ≤ later → later < instant + remaining → (w.asOf later).Withholds) ∧
      (w.asOf (instant + remaining)).SendsOne
  | .due => (w.asOf instant).pacingRemaining = none ∧ (w.asOf instant).SendsOne

theorem withholds_of_not_sendable {w : Endpoint ρ σ} (h : ¬ w.Sendable) : w.Withholds := by
  rw [Withholds, drain_eq]
  split
  · rename_i hmay
    rw [Bool.and_eq_true] at hmay
    split
    · rename_i fragment queue hnext
      exact absurd (sendable_iff.2 ⟨hmay.1, _, hnext⟩) h
    · rfl
  · rfl

theorem withholds_of_not_due {w : Endpoint ρ σ} (h : w.transport.outbound.isDue w.now = false) :
    w.Withholds := by
  rw [Withholds, drain_eq, h, Bool.and_false, if_neg Bool.false_ne_true]

theorem Sendable.sendsOne {w : Endpoint (Logged ρ) σ} (h : w.Sendable)
    (hdue : w.transport.outbound.isDue w.now = true) : w.SendsOne := by
  obtain ⟨hready, cut, hnext⟩ := sendable_iff.1 h
  have hdrained := drained_drain w
  generalize hw : w.drain.2 = w', w.drain.1 = sent at hdrained
  rw [SendsOne, hw]
  cases hdrained with
  | idle hidle => simp [hidle hready hdue] at hnext
  | sent fragment queue ready next taken air => exact ⟨fragment, _, log_of_air air⟩
  | refused fragment queue ready next refused air => exact ⟨fragment, _, log_of_air air⟩

theorem SendsOne.not_withholds {w : Endpoint (Logged ρ) σ} (h : w.SendsOne) : ¬ w.Withholds := by
  intro hno
  obtain ⟨fragment, accepted, hlog⟩ := h
  rw [hno] at hlog
  simp at hlog

/-- What is held back until `deadline` goes out then and not before. -/
theorem Sendable.stands_held {w : Endpoint (Logged ρ) σ} (h : w.Sendable) {instant deadline : Nanos}
    (hdeadline : w.notBefore = some deadline) (hahead : instant < deadline) :
    w.Stands instant (.held (deadline - instant)) := by
  have hdue (t : Nanos) : (w.asOf t).transport.outbound.isDue t = decide (deadline ≤ t) := by
    change w.transport.outbound.notBefore = _ at hdeadline
    rw [asOf, Outbound.isDue, hdeadline]
  have hend : instant + (deadline - instant) = deadline :=
    Nat.add_sub_of_le (Nat.le_of_lt hahead)
  rw [Stands, hend]
  refine ⟨?_, Nat.sub_pos_of_lt hahead, fun later _ hlater => ?_, ?_⟩
  · have hremaining : (w.asOf instant).pacingRemaining = _ := Sendable.pacingRemaining h
    have hnotBefore : (w.asOf instant).notBefore = some deadline := hdeadline
    rw [hremaining, hnotBefore]
    exact if_pos hahead
  · exact withholds_of_not_due ((hdue later).trans (decide_eq_false (Nat.not_le_of_lt hlater)))
  · exact Sendable.sendsOne h ((hdue deadline).trans (decide_eq_true (Nat.le_refl deadline)))

theorem Sendable.stands_due {w : Endpoint (Logged ρ) σ} (h : w.Sendable) {instant : Nanos}
    (hdue : ∀ deadline, w.notBefore = some deadline → deadline ≤ instant) :
    w.Stands instant .due := by
  have hremaining : (w.asOf instant).pacingRemaining = _ := Sendable.pacingRemaining h
  have hnow : (w.asOf instant).transport.outbound.isDue (w.asOf instant).now = true := by
    rw [Outbound.isDue]
    split
    · rfl
    · rename_i deadline hdeadline
      exact decide_eq_true (hdue deadline hdeadline)
  refine ⟨?_, Sendable.sendsOne h hnow⟩
  rw [hremaining]
  split
  · rename_i deadline hdeadline
    exact if_neg (Nat.not_lt_of_le (hdue deadline hdeadline))
  · rfl

/-- At any instant one of the cases holds, and no other. -/
theorem exists_unique_stands (w : Endpoint (Logged ρ) σ) (instant : Nanos) :
    ∃! standing, w.Stands instant standing := by
  by_cases hsend : w.Sendable
  · have hidle : ¬ w.Stands instant .idle := fun h => h.1 hsend
    by_cases hahead : ∃ deadline, w.notBefore = some deadline ∧ instant < deadline
    · obtain ⟨deadline, hdeadline, hlt⟩ := hahead
      have hheld := hsend.stands_held hdeadline hlt
      refine ⟨_, hheld, fun other hother => ?_⟩
      cases other with
      | idle => exact absurd hother hidle
      | held remaining =>
        have hsame := hother.1.symm.trans hheld.1
        rw [Option.some.inj hsame]
      | due => cases hother.1.symm.trans hheld.1
    · have hdue : w.Stands instant .due := hsend.stands_due fun deadline hdeadline =>
        Nat.le_of_not_lt fun hlt => hahead ⟨deadline, hdeadline, hlt⟩
      refine ⟨_, hdue, fun other hother => ?_⟩
      cases other with
      | idle => exact absurd hother hidle
      | held remaining => cases hother.1.symm.trans hdue.1
      | due => rfl
  · have hsend' : ¬ (w.asOf instant).Sendable := hsend
    have hwithholds := withholds_of_not_sendable hsend'
    refine ⟨.idle, ⟨hsend, pacingRemaining_of_not_sendable hsend', hwithholds⟩,
      fun other hother => ?_⟩
    cases other with
    | idle => rfl
    | held remaining => cases hother.1.symm.trans (pacingRemaining_of_not_sendable hsend')
    | due => exact absurd hwithholds hother.2.not_withholds

/-! ## The operations -/

/-- What an operation leaves sendable waits for a deadline: if it tried to send, for one that was
ahead, and else for the one there was. -/
def Leaves (tried : Bool) (w w' : Endpoint ρ σ) : Prop :=
  w'.Sendable →
    if tried then ∃ deadline, w'.notBefore = some deadline ∧ w.now < deadline
    else w.Sendable ∧ w'.notBefore = w.notBefore

section

omit [Radio ρ]

variable {tried : Bool} {w u w' : Endpoint ρ σ}

theorem Leaves.of_same (houtbound : w'.transport.outbound = w.transport.outbound)
    (hconnection : w'.transport.connection = w.transport.connection) : Leaves false w w' := by
  rintro ⟨hready, hbytes, hflight⟩
  rw [houtbound] at hbytes hflight
  rw [hconnection] at hready
  exact ⟨⟨hready, hbytes, hflight⟩, congrArg Outbound.notBefore houtbound⟩

theorem Leaves.of_unready (h : w'.transport.connection.isReady = false) : Leaves tried w w' := by
  rintro ⟨hready, -⟩
  rw [h] at hready
  cases hready

theorem Leaves.of_before (h : Leaves tried u w') (htransport : u.transport = w.transport)
    (hnow : u.now = w.now) : Leaves tried w w' := by
  unfold Leaves Sendable notBefore at h ⊢
  rw [← htransport, ← hnow]
  exact h

theorem Leaves.of_empty (h : w'.transport.outbound.queue.bytes = []) : Leaves tried w w' :=
  fun hsend => absurd h hsend.2.1

end

section

variable {w w' : Endpoint ρ σ}

theorem Aside.leaves (h : Aside w w') : Leaves false w w' :=
  .of_same h.link.outbound h.link.connection

/-- After an attempt to send, what is still sendable was not due. -/
theorem Drained.leaves {u : Endpoint ρ σ} {sent : Bool} (h : Drained u sent w')
    (hnow : u.now = w.now) : Leaves true w w' := by
  intro hsend
  cases h with
  | idle hidle =>
    obtain ⟨hready, cut, hnext⟩ := sendable_iff.1 hsend
    have hdue : ¬ w'.transport.outbound.isDue w'.now = true := fun hdue => by
      rw [hidle hready hdue] at hnext
      cases hnext
    rw [Outbound.isDue] at hdue
    cases hdeadline : w'.transport.outbound.notBefore with
    | none => simp [hdeadline] at hdue
    | some deadline =>
      rw [hdeadline] at hdue
      refine ⟨deadline, hdeadline, hnow ▸ ?_⟩
      simpa using hdue
  | sent fragment queue ready next taken air now course outbound =>
    obtain ⟨-, -, -, rfl⟩ := FragmentQueue.next?_eq_some next
    have hflight := hsend.2.2
    rw [outbound] at hflight
    cases hflight
  | refused fragment queue ready next refused air now course outbound =>
    have hbytes := hsend.2.1
    rw [outbound] at hbytes
    exact absurd rfl hbytes

theorem Attempted.unready {cs : List Candidate} (h : Attempted cs w w') :
    w'.transport.connection.isReady = false := by
  rcases h.outcome with hnone | ⟨_, _, _, _, _, hconn, _⟩
  · rw [hnone.connection]
    rfl
  · rw [hconn]
    rfl

theorem Seek.leaves [DeviceStore σ] {target : Option Address} (h : Seek target w w') :
    Leaves false w w' := by
  cases h with
  | idle ha => exact ha.leaves
  | tries cs hw hu hcs =>
    exact .of_unready (attempted_tryCandidates cs (hu.link.connection.trans hw)).unready

theorem Ended.leaves (h : Ended w w') : Leaves false w w' :=
  .of_unready h.unwanted.2.1

/-- A write that is accepted tries to send. -/
theorem Answered.leaves {bytes : List UInt8} {ok : Bool} (h : Answered bytes w ok w') :
    Leaves ok w w' := by
  cases h with
  | @accepted queue h failed fits queued =>
    exact (drained_drain (w.withQueue queue)).leaves rfl
  | unlinked h => exact .of_same rfl rfl
  | reports h failed => exact fun hsend => ⟨hsend, rfl⟩
  | overflows h failed full => exact .of_same rfl rfl

theorem Dropped.unready {p : Address} (h : Dropped p w w') :
    w'.transport.connection.isReady = false := by
  rw [h.connection]
  rfl

theorem LinkUpDone.leaves (h : LinkUpDone w w') : Leaves false w w' := by
  cases h with
  | unexpected => exact .of_same rfl rfl
  | cancelled p hc traffic connection => exact .of_unready (by rw [connection]; rfl)
  | @kept u p hc opened taken =>
    refine .of_unready ?_
    change u.transport.connection.isReady = false
    rw [opened.connection]
    rfl
  | dropped p hc opened refused dropped => exact .of_unready dropped.unready

theorem LinkDownDone.leaves (h : LinkDownDone w w') : Leaves false w w' := by
  cases h with
  | ignored => exact .of_same rfl rfl
  | failed p hc => exact .of_unready (attempted_tryCandidates _ rfl).unready
  | _ => exact .of_unready rfl

/-- The report that a fragment arrived makes the next one be sent, if there is one. -/
theorem CompletedDone.leaves {success : Bool} (h : CompletedDone success w w') :
    Leaves (success && w.transport.outbound.queue.inFlight &&
      !w.transport.outbound.queue.bytes.isEmpty) w w' := by
  cases h with
  | unexpected hflight =>
    rw [hflight, Bool.and_false, Bool.false_and]
    exact .of_same rfl rfl
  | acknowledged hflight hs =>
    by_cases hbytes : w.transport.outbound.queue.bytes = []
    · refine .of_empty ?_
      rw [drain_of_empty (w := w.acknowledged) hbytes]
      exact hbytes
    · rw [hs, hflight, Bool.true_and, Bool.true_and, List.isEmpty_eq_false_iff.2 hbytes]
      exact (drained_drain w.acknowledged).leaves rfl
  | failed hflight hs air now course outbound =>
    refine .of_empty ?_
    rw [outbound]
    rfl

end

/-- Services that were discovered make what is queued be sent if notifications could be enabled. -/
theorem DiscoveredDone.leaves {success : Bool} {w w' : Endpoint (Logged ρ) σ}
    (h : DiscoveredDone success w w') {cs : List (Call × Bool)}
    (hlog : w'.radio.log = w.radio.log ++ cs) :
    Leaves (decide ((.enableNotify .notify, true) ∈ cs)) w w' := by
  cases h with
  | ignored =>
    obtain rfl : cs = [] := by simpa using hlog
    exact .of_same rfl rfl
  | ready p r hc taken =>
    obtain ⟨ds, hsent, -⟩ := ((drained_drain (w.submit (.enableNotify .notify)).2.readied).asks
      (P := fun _ => True) fun _ _ => trivial).log
    have hfirst : (w.submit (.enableNotify .notify)).2.readied.radio.log =
        w.radio.log ++ [(.enableNotify .notify, true)] := by
      rw [← taken]
      rfl
    obtain rfl : cs = (.enableNotify .notify, true) :: ds := by
      rw [hsent, hfirst, List.append_assoc] at hlog
      exact (List.append_cancel_left hlog).symm
    rw [decide_eq_true List.mem_cons_self]
    exact (drained_drain (w.submit (.enableNotify .notify)).2.readied).leaves rfl
  | refused p r hc refused dropped => exact .of_unready dropped.unready
  | failed p r hc dropped => exact .of_unready dropped.unready

section

variable [DeviceStore σ]

/-- Whether an action of a consumer tries to send. -/
def tries (a : Action) (w : Endpoint ρ σ) : Bool :=
  match a with
  | .write bytes => (w.write bytes).1
  | .drainDue => true
  | _ => false

theorem leaves_act {a : Action} (ha : a.byConsumer = true) (w : Endpoint ρ σ) :
    Leaves (w.tries a) w (w.act a) := by
  cases a with
  | write bytes => exact (answered_write bytes w).leaves
  | drainDue => exact (drained_drain w).leaves rfl
  | start => exact .of_same rfl rfl
  | stop =>
    rw [act]
    rcases stop_cases w with heq | ⟨u, hu, heq⟩
    · rw [heq]
      exact .of_same rfl rfl
    · rw [heq]
      exact .of_unready (ended_disconnect u).unwanted.2.1
  | connect target => exact (seek_connect target w).leaves
  | disconnect => exact (ended_disconnect w).leaves
  | pollAt instant => exact (seek_pollAt instant w).leaves
  | startScan => exact (aside_beginScan w).leaves
  | read n =>
    obtain ⟨inbound, heq⟩ := read_eq n w
    rw [act, heq]
    exact .of_same rfl rfl
  | setTarget target =>
    obtain ⟨policy, heq⟩ := setTarget_eq target w
    rw [act, heq]
    exact .of_same rfl rfl
  | wait d => exact .of_same rfl rfl
  | handle e => cases ha
  | next => cases ha
  | raise e => cases ha

end

end Endpoint

/-! ## Turns and runs -/

namespace Turn

open Endpoint

variable {ρ σ : Type} [Radio ρ] [DeviceStore σ]

/-- Whether the turn tries to send what is queued: a consumer asks for it or had bytes queued, the
link became ready, or a fragment was acknowledged and others wait behind it. -/
def drains (t : Turn ρ σ) : Bool :=
  match t.event? with
  | some (.servicesDiscovered _) => (.enableNotify .notify, true) ∈ t.calls
  | some (.writeComplete success) =>
    let queue := t.before.transport.outbound.queue
    success && queue.inFlight && !queue.bytes.isEmpty
  | some _ => false
  | none =>
    match t.step with
    | .act a => t.before.tries a
    | _ => false

theorem leaves (t : Turn ρ σ) : Leaves t.drains t.before t.after := by
  cases t.kind with
  | still idle event transport log =>
    have hdrains : t.drains = false := by
      rw [drains, event]
      dsimp only
      split
      · rename_i a hstep
        have ha := idle a hstep
        cases a <;> first | rfl | cases ha
      · rfl
    rw [hdrains]
    exact .of_same (by rw [transport]) (by rw [transport])
  | acts a ha hstep =>
    rw [drains, event?_of_consumer ha hstep, hstep, after_of_step hstep]
    exact leaves_act ha t.before
  | handles e w idle event transport radio after now =>
    have hbefore {w' : Endpoint (Logged ρ) σ} {tried : Bool} (h : Leaves tried w w') :
        Leaves tried t.before w' := h.of_before transport now
    rw [drains, event, ← transport, after]
    cases e with
    | scanResult d => exact hbefore (aside_onScanResult d w).leaves
    | scanComplete => exact hbefore (aside_onScanComplete w).leaves
    | linkUp => exact hbefore (linkUpDone_onLinkUp w).leaves
    | linkDown => exact hbefore (linkDownDone_onLinkDown w).leaves
    | servicesDiscovered success =>
      have hlog : (w.onServicesDiscovered success).radio.log = w.radio.log ++ t.calls := by
        rw [radio, ← t.log_after, after]
        rfl
      exact hbefore ((discoveredDone_onServicesDiscovered success w).leaves hlog)
    | writeComplete success => exact hbefore (completedDone_onWriteComplete success w).leaves
    | received bytes =>
      obtain ⟨inbound, heq⟩ := onReceived_eq bytes w
      rw [Endpoint.handle, heq]
      exact hbefore (.of_same rfl rfl)

end Turn

namespace Endpoint

open Turn

variable {ρ σ : Type} [Radio ρ] [DeviceStore σ] {s : LinkSettings} {w : Endpoint (Logged ρ) σ}

/-- What is sendable at the end of a run was held back when the last turn that tried to send it was
made, until a deadline that still stands. -/
theorem held_since (hw : ¬ w.Sendable) (steps : List (Step ρ σ))
    (h : (w.runLogged steps).Sendable) :
    ∃ deadline, (w.runLogged steps).notBefore = some deadline ∧
      Since (fun _ t => t.drains = true ∧ t.after.Sendable ∧ t.before.now < deadline ∧
        t.after.notBefore = some deadline) (fun t => t.drains = false) (turns steps w) := by
  induction steps using List.reverseRecOn with
  | nil => exact absurd h hw
  | append_singleton steps st ih =>
    obtain ⟨t, hturns, -, hbefore, hafter⟩ := exists_last_turn steps st w
    rw [← hafter] at h ⊢
    rw [hturns]
    have hleaves := t.leaves h
    cases hdrains : t.drains with
    | true =>
      rw [hdrains, if_pos rfl] at hleaves
      obtain ⟨deadline, hdeadline, hahead⟩ := hleaves
      exact ⟨deadline, hdeadline, Since.of_last ⟨hdrains, h, hahead, hdeadline⟩⟩
    | false =>
      rw [hdrains, if_neg Bool.false_ne_true, hbefore] at hleaves
      obtain ⟨deadline, hdeadline, hsince⟩ := ih hleaves.1
      exact ⟨deadline, hleaves.2.trans hdeadline, hsince.later hdrains⟩

/-- At any instant of any run of a transport that was created there is nothing to send, or a fragment
is held back and goes out when the time to wait is over and not before, or one is due and goes out;
it is one of the three exactly. Where the link is ready and bytes are queued with no fragment in
flight, there is a deadline, and it was ahead when the last turn that tried to send was made: a
fragment was held back then. -/
theorem held_back_not_forgotten {target : Option String} {radio : Logged ρ} {store : σ}
    (hw : create s target radio store = .ok w) (steps : List (Step ρ σ)) :
    let u := w.runLogged steps
    (∀ instant, ∃! standing, u.Stands instant standing) ∧
    (u.Sendable → ∃ deadline before t after, u.notBefore = some deadline ∧
      turns steps w = before ++ t :: after ∧ t.drains = true ∧ (∀ v ∈ after, v.drains = false) ∧
      t.before.now < deadline ∧ t.after.Stands t.before.now (.held (deadline - t.before.now))) := by
  intro u
  refine ⟨exists_unique_stands u, fun h => ?_⟩
  have hidle : ¬ w.Sendable := by
    obtain ⟨a, devices, -, rfl⟩ := create_eq hw
    exact fun hsend => absurd rfl hsend.2.1
  obtain ⟨deadline, hdeadline, before, t, after, hturns, ⟨hdrains, hsend, hahead, hat⟩, hafter⟩ :=
    held_since hidle steps h
  exact ⟨deadline, before, t, after, hdeadline, hturns, hdrains, hafter, hahead,
    hsend.stands_held hat hahead⟩

/-- The first fragment of a write is acknowledged while the delay has not passed. The second one is
held back, and still is when bytes arrive a moment before the deadline. -/
theorem held_back_not_forgotten_past_acknowledgement :
    ∃ (w : Endpoint (Logged Radio.Simulated) Store.Memory)
      (steps : List (Step Radio.Simulated Store.Memory)),
      create { maxFragment := 2, writeDelay := 5 } none ⟨{}, []⟩ {} = .ok w ∧
      (w.runLogged steps).Sendable ∧ (w.runLogged steps).now = 4 ∧
      (w.runLogged steps).pacingRemaining = some 1 ∧
      (∃! standing, (w.runLogged steps).Stands 4 standing) ∧
      ∃ deadline before t after, (w.runLogged steps).notBefore = some deadline ∧
        turns steps w = before ++ t :: after ∧ t.drains = true ∧
        (∀ v ∈ after, v.drains = false) ∧ t.before.now < deadline ∧
        t.after.Stands t.before.now (.held (deadline - t.before.now)) := by
  let settings : LinkSettings := { maxFragment := 2, writeDelay := 5 }
  let radio : Logged Radio.Simulated := ⟨{}, []⟩
  let steps : List (Step Radio.Simulated Store.Memory) :=
    [.act .start, .act (.connect (some ⟨1, 2, 3, 4, 5, 6⟩)), .act .next, .act .next,
      .act (.write [1, 2, 3]), .act (.wait 3), .act .next, .act (.wait 1),
      .act (.handle (.received [7]))]
  have hw : create settings none radio ({} : Store.Memory) = .ok _ := rfl
  obtain ⟨hcases, hheld⟩ := held_back_not_forgotten hw steps
  exact ⟨_, steps, hw, by decide, by decide, by decide, hcases 4, hheld (by decide)⟩

end Endpoint

end VehicleLink
