import VehicleLink.Proofs.History
import VehicleLink.Proofs.InboundStream

/-!
# Cancellation

A disconnect or a stop takes effect with the radio's next report on the link, whatever comes
between: nothing is asked of the radio that makes a link or uses it, and the report leaves nothing
behind. A stopped transport stays without a link until it is started.

Both rest on one fact about turns (`Turn.connection_of_unwanted`): where no attempt and no link is
wanted, and no attempt may be made, only such a report moves the connection.
-/

namespace VehicleLink

/-! ## Connections that are not wanted -/

namespace Connection

/-- Whether a report on the link is one that the connection waits for. -/
def accepts (c : Connection) : Event → Bool
  | .linkUp => c.isConnecting
  | .linkDown => c.isConnecting || c.isConnected
  | _ => false

variable {c : Connection}

theorem after_handled_of_unwanted (hw : c.isWanted = false) (e : Event) :
    c.after (.handled e) = if c.accepts e then .disconnected else c := by
  cases e with
  | linkUp =>
    cases c with
    | connecting p teardown =>
      cases teardown with
      | true => rfl
      | false => cases hw
    | _ => rfl
  | linkDown =>
    cases c with
    | disconnected => rfl
    | connecting p teardown => cases teardown <;> rfl
    | connected p ready teardown => cases teardown <;> rfl
  | _ => rfl

theorem after_called_of_unwanted (hw : c.isWanted = false) (hr : c.isReady = false) {k : Call}
    (hk : k.engages = false) (accepted : Bool) : c.after (.called k accepted) = c := by
  cases k with
  | disconnect =>
    cases c with
    | disconnected => rfl
    | connecting p teardown =>
      cases teardown with
      | true => rfl
      | false => cases hw
    | connected p ready teardown =>
      obtain rfl : ready = false := hr
      cases teardown with
      | true => rfl
      | false => cases hw
  | scan d => rfl
  | stopScan => rfl
  | _ => cases hk

theorem foldl_after_of_unwanted (hw : c.isWanted = false) (hr : c.isReady = false)
    {cs : List (Call × Bool)} (hcs : ∀ k ∈ cs, k.1.engages = false) :
    (cs.map fun k => Entry.called k.1 k.2).foldl after c = c := by
  induction cs with
  | nil => rfl
  | cons k cs ih =>
    have hk : c.after (.called k.1 k.2) = c :=
      after_called_of_unwanted hw hr (hcs k (by simp)) k.2
    simpa [hk] using ih fun j hj => hcs j (by simp [hj])

end Connection

namespace Endpoint

variable {ρ σ : Type} [Radio ρ] {w w' : Endpoint ρ σ}

/-! ## What stops a transport -/

variable [DeviceStore σ]

/-- No report changes what is wanted. -/
theorem setup_handle (e : Event) (w : Endpoint ρ σ) :
    SameSetup w.transport (w.handle e).transport := by
  cases e with
  | scanResult d => exact (aside_onScanResult d w).link.toSameSetup
  | scanComplete => exact (aside_onScanComplete w).link.toSameSetup
  | linkUp =>
    have h := linkUpDone_onLinkUp w
    change SameSetup w.transport w.onLinkUp.transport
    generalize w.onLinkUp = w' at h ⊢
    cases h with
    | unexpected => exact {}
    | cancelled p hc traffic => exact traffic.toSameSetup
    | kept p hc opened => exact opened.setup.trans {}
    | dropped p hc opened refused dropped =>
      exact opened.setup.trans (SameSetup.trans {} dropped.traffic.toSameSetup)
  | linkDown =>
    have h := linkDownDone_onLinkDown w
    change SameSetup w.transport w.onLinkDown.transport
    generalize w.onLinkDown = w' at h ⊢
    cases h with
    | failed p hc =>
      let gone := w.gone.update (Transport.noteError (.connectFailed p))
      have ha := attempted_tryCandidates (w := gone) w.transport.candidates rfl
      exact SameSetup.trans {} ha.traffic.toSameSetup
    | _ => exact {}
  | servicesDiscovered success =>
    exact (discoveredDone_onServicesDiscovered success w).intake.toSameSetup
  | writeComplete success => exact (completedDone_onWriteComplete success w).course.toSameSetup
  | received bytes =>
    obtain ⟨inbound, heq⟩ := onReceived_eq bytes w
    rw [handle, heq]
    exact {}

theorem running_act {a : Action} (ha : a.byConsumer = true) (hstart : a ≠ .start)
    (hstop : a ≠ .stop) (w : Endpoint ρ σ) :
    (w.act a).transport.running = w.transport.running := by
  have h := acted_act ha w
  generalize w.act a = w' at h ⊢
  cases h with
  | starts => exact absurd rfl hstart
  | stops => exact absurd rfl hstop
  | seeks running h => exact h.traffic.running
  | ends h => exact h.intake.running
  | aside h => exact h.link.running
  | writes h => exact h.written.course.running
  | drains h => exact h.course.running
  | _ => rfl

omit [DeviceStore σ] in
/-- What was under way is not wanted any more, and goes on until the radio reports its end. -/
theorem Ended.unwanted (h : Ended w w') :
    w'.transport.connection.isWanted = false ∧ w'.transport.connection.isReady = false ∧
      (w.transport.connection ≠ .disconnected → w'.transport.connection ≠ .disconnected) := by
  cases h with
  | none hc =>
    change w.transport.connection.isWanted = false ∧ w.transport.connection.isReady = false ∧ _
    rw [hc]
    exact ⟨rfl, rfl, fun hne => absurd rfl hne⟩
  | asked c hc air now setup connected =>
    obtain ⟨hwanted, hready⟩ := Connection.unwanted_of_requestTeardown hc
    rw [connected]
    refine ⟨hwanted, hready, fun _ hnone => ?_⟩
    cases hw : w.transport.connection <;> rw [hw] at hc <;> cases hc <;> cases hnone

end Endpoint

namespace Turn

open Endpoint

variable {ρ σ : Type} [Radio ρ] [DeviceStore σ] {s : LinkSettings} {t : Turn ρ σ}

theorem running_after (t : Turn ρ σ) :
    t.step = .act .start ∨ t.step = .act .stop ∨
      t.after.transport.running = t.before.transport.running := by
  cases t.kind with
  | still idle event transport log => exact .inr (.inr (by rw [transport]))
  | handles e w idle event transport radio after =>
    exact .inr (.inr (by rw [after, (setup_handle e w).running, transport]))
  | acts a ha hstep =>
    by_cases hstart : a = .start
    · exact .inl (by rw [hstep, hstart])
    · by_cases hstop : a = .stop
      · exact .inr (.inl (by rw [hstep, hstop]))
      · exact .inr (.inr (by rw [after_of_step hstep, running_act ha hstart hstop]))

/-- The turn handles a report on the link that the connection waits for. -/
def ends (t : Turn ρ σ) : Bool :=
  match t.event? with
  | some e => t.before.transport.connection.accepts e
  | none => false

/-! ## Turns in which nothing is wanted -/

/-- The transport wants no attempt and no link, and may not make an attempt. -/
structure Unwanting (t : Transport) : Prop where
  wanted : t.connection.isWanted = false
  ready : t.connection.isReady = false
  stopped : t.connection = .disconnected → t.running = false

theorem disengaged (h : Unwanting t.before.transport) : ∀ c ∈ t.calls, c.1.engages = false := by
  intro c hc
  have hwarrant := t.warranted c hc
  have hattempt {p : Address} : t.before.transport.connection ≠ .connecting p false := by
    intro hp
    simpa [hp, Connection.isWanted] using h.wanted
  have hlink {p : Address} {r : Bool} : t.before.transport.connection ≠ .connected p r false := by
    intro hp
    simpa [hp, Connection.isWanted] using h.wanted
  generalize c.1 = k, t.event? = e at hwarrant
  cases hwarrant with
  | scan hscan => cases k <;> first | rfl | cases hscan
  | disconnect => rfl
  | connect a running hp => simp [h.stopped hp] at running
  | fallback a p hp => exact absurd hp hattempt
  | discover p hp => exact absurd hp hattempt
  | notify k p r hp => exact absurd hp hlink
  | write k fragment hready => simp [h.ready] at hready
  | first k fragment p r hp => exact absurd hp hlink

/-- Where nothing is wanted, only a report on the link moves the connection. -/
theorem connection_of_unwanted {es : List Entry} (hr : Recorded es t.before.transport)
    (h : Unwanting t.before.transport) :
    t.after.transport.connection =
      if t.ends then .disconnected else t.before.transport.connection := by
  have hafter := (t.recorded hr).tracked.connection
  rw [Connection.replay_append, hr.tracked.connection, entries, Endpoint.entries,
    List.foldl_append] at hafter
  rw [← hafter, ends]
  cases t.event? with
  | none => exact Connection.foldl_after_of_unwanted h.wanted h.ready (disengaged h)
  | some e =>
    simp only [Option.map_some, Option.toList_some, List.foldl_cons, List.foldl_nil,
      Connection.after_handled_of_unwanted h.wanted e]
    split
    · exact Connection.foldl_after_of_unwanted rfl rfl (disengaged h)
    · exact Connection.foldl_after_of_unwanted h.wanted h.ready (disengaged h)

end Turn

namespace Endpoint

open Turn

variable {ρ σ : Type} [Radio ρ] [DeviceStore σ] {s : LinkSettings} {w u : Endpoint (Logged ρ) σ}

/-! ## Runs -/

/-- What holds of every endpoint that was created and run. -/
structure Reached (s : LinkSettings) (w : Endpoint (Logged ρ) σ) : Prop where
  recorded : ∃ h, Recorded h w.transport
  sound : Sound s w.transport
  unread : w.isUp = false → w.buffered = []
  /-- A transport is stopped with its link and its attempts. -/
  stopped : w.transport.running = false → w.transport.connection.isWanted = false

omit [Radio ρ] [DeviceStore σ] in
theorem Reached.unready (h : Reached s w) (hw : w.transport.connection.isWanted = false) :
    w.transport.connection.isReady = false := by
  obtain ⟨es, hr⟩ := h.recorded
  exact hr.unready hw

omit [Radio ρ] [DeviceStore σ] in
theorem Reached.unwanting (h : Reached s w) (hrun : w.transport.running = false) :
    Unwanting w.transport :=
  ⟨h.stopped hrun, h.unready (h.stopped hrun), fun _ => hrun⟩

theorem reached_create {target : Option String} {radio : Logged ρ} {store : σ}
    (hw : create s target radio store = .ok w) : Reached s w := by
  have hrecorded := recorded_create hw
  have hsound : Sound s w.transport := sound_create hw
  obtain ⟨a, devices, -, rfl⟩ := create_eq hw
  exact ⟨⟨[], hrecorded⟩, hsound, fun _ => rfl, fun _ => rfl⟩

omit [DeviceStore σ] in
theorem unwanted_stop (h : Reached s w) : w.stop.transport.connection.isWanted = false ∧
    (w.transport.connection ≠ .disconnected → w.stop.transport.connection ≠ .disconnected) := by
  cases hrun : w.transport.running with
  | false =>
    rw [stop_of_stopped hrun]
    exact ⟨h.stopped hrun, id⟩
  | true =>
    obtain ⟨u, hu, heq⟩ := stop_of_running hrun
    obtain ⟨hwanted, -, hbusy⟩ := (ended_disconnect u).unwanted
    rw [heq]
    exact ⟨hwanted, fun hne => hbusy (hu.link.connection ▸ hne)⟩

theorem Reached.after {t : Turn ρ σ} (h : Reached s t.before) : Reached s t.after := by
  obtain ⟨es, hr⟩ := h.recorded
  refine ⟨⟨_, t.recorded hr⟩, sound_step h.sound t.step.logged, t.inflow.unread h.unread, ?_⟩
  intro hrun
  rcases t.running_after with hstart | hstop | hsame
  · rw [after_of_step hstart] at hrun
    cases hrun
  · rw [after_of_step hstop]
    exact (unwanted_stop h).1
  · -- nothing is wanted before the turn, so nothing is wanted after it
    have hunwanting := h.unwanting (hsame.symm.trans hrun)
    rw [connection_of_unwanted hr hunwanting]
    split
    · rfl
    · exact hunwanting.wanted

theorem reached_run (h : Reached s w) (steps : List (Step ρ σ)) : Reached s (w.runLogged steps) := by
  induction steps using List.reverseRecOn with
  | nil => exact h
  | append_singleton steps st ih =>
    rw [runLogged_concat]
    exact Reached.after (t := ⟨w.runLogged steps, st⟩) ih

/-- Until the connection is gone, a transport that wants nothing goes on to want nothing. -/
theorem unwanting_before {earlier after : List (Turn ρ σ)} {t : Turn ρ σ}
    {later : List (Step ρ σ)} (h : Reached s u) (hw : u.transport.connection.isWanted = false)
    (hbusy : u.transport.connection ≠ .disconnected)
    (hturns : turns later u = earlier ++ t :: after)
    (hearlier : ∀ v ∈ earlier, v.after.transport.connection ≠ .disconnected) :
    Reached s t.before ∧ Unwanting t.before.transport ∧
      t.before.transport.connection ≠ .disconnected := by
  have hunwanting : Unwanting u.transport := ⟨hw, h.unready hw, fun hnone => absurd hnone hbusy⟩
  induction earlier generalizing u later with
  | nil =>
    cases later with
    | nil => cases hturns
    | cons st later =>
      injection hturns with ht
      subst ht
      exact ⟨h, hunwanting, hbusy⟩
  | cons v earlier ih =>
    cases later with
    | nil => cases hturns
    | cons st later =>
      injection hturns with hv hturns
      subst hv
      have hnext := hearlier ⟨u, st⟩ (by simp)
      obtain ⟨es, hr⟩ := h.recorded
      have hsame : (Turn.after ⟨u, st⟩).transport.connection = u.transport.connection := by
        have hmove := connection_of_unwanted (t := ⟨u, st⟩) hr hunwanting
        split at hmove
        · exact absurd hmove hnext
        · exact hmove
      have hafter : Reached s (Turn.after ⟨u, st⟩) := Reached.after h
      refine ih hafter (hsame ▸ hw) hnext hturns (fun v hv => hearlier v (by simp [hv])) ?_
      exact ⟨hsame ▸ hw, hsame ▸ hunwanting.ready, fun hnone => absurd hnone hnext⟩

omit [Radio ρ] [DeviceStore σ] in
theorem Reached.idle (h : Reached s w) (hrun : w.transport.running = false) :
    w.transport.candidates = [] := by
  refine h.sound.no_candidates fun p hp => ?_
  simpa [hp, Connection.isWanted] using h.stopped hrun

/-- Nothing waits, neither to be tried nor to be sent or read. -/
structure Cleared {ρ σ : Type} (w : Endpoint ρ σ) : Prop where
  connection : w.transport.connection = .disconnected
  candidates : w.transport.candidates = []
  queued : w.outgoing = []
  inFlight : w.transport.outbound.queue.inFlight = false
  buffered : w.buffered = []

omit [Radio ρ] [DeviceStore σ] in
theorem Reached.cleared (h : Reached s w) (hnone : w.transport.connection = .disconnected) :
    Cleared w where
  connection := hnone
  candidates := h.sound.no_candidates (by simp [hnone])
  queued := h.sound.unqueued (by rw [hnone]; rfl)
  inFlight := h.sound.unsent (by rw [hnone]; rfl)
  buffered := h.unread (by rw [isUp, hnone]; rfl)

theorem stopped_turns {later : List (Step ρ σ)} (h : Reached s u)
    (hrun : u.transport.running = false) (hlater : ∀ st ∈ later, st ≠ .act .start) :
    ∀ t ∈ turns later u, Reached s t.after ∧ t.after.transport.running = false ∧
      Unwanting t.before.transport := by
  induction later generalizing u with
  | nil => simp [turns]
  | cons st later ih =>
    let v : Turn ρ σ := ⟨u, st⟩
    have hafter : Reached s v.after := Reached.after h
    have hstill : v.after.transport.running = false := by
      rcases v.running_after with hstart | hstop | hsame
      · exact absurd hstart (hlater st (by simp))
      · rw [after_of_step hstop]
        exact (congrArg (fun w => w.transport.running) (stop_of_stopped hrun)).trans hrun
      · exact hsame.trans hrun
    intro t ht
    rcases List.mem_cons.1 ht with rfl | ht
    · exact ⟨hafter, hstill, h.unwanting hrun⟩
    · exact ih hafter hstill (fun st hst => hlater st (List.mem_cons_of_mem _ hst)) t ht

/-- At any moment of any run of a transport that was created: after a disconnect or a stop that
finds an attempt or a link under way, nothing is asked of the radio that makes a link or uses it,
and the link does not become ready, until the connection is gone. That takes the first report on the
link that the connection waits for, and nothing else; it leaves nothing behind. A stopped transport
waits for no candidate, and until it is started it asks for no such thing and gets no link. -/
theorem cancellation_honoured {target : Option String} {radio : Logged ρ} {store : σ}
    (hw : create s target radio store = .ok w) (steps : List (Step ρ σ)) :
    let u := w.runLogged steps
    (∀ a, a = .disconnect ∨ a = .stop → u.transport.connection ≠ .disconnected →
      (u.act a).transport.connection ≠ .disconnected ∧
      (u.act a).transport.connection.isReady = false ∧
      ∀ later earlier t after, turns later (u.act a) = earlier ++ t :: after →
        (∀ v ∈ earlier, v.after.transport.connection ≠ .disconnected) →
        (∀ c ∈ t.calls, c.1.engages = false) ∧
        t.after.transport.connection.isReady = false ∧
        (t.after.transport.connection = .disconnected ↔ t.ends = true) ∧
        (t.ends = true → Cleared t.after)) ∧
    (u.transport.running = false →
      u.transport.candidates = [] ∧
      ∀ later, (∀ st ∈ later, st ≠ .act .start) → ∀ t ∈ turns later u,
        (∀ c ∈ t.calls, c.1.engages = false) ∧ t.establishes = false ∧
          t.after.transport.candidates = []) := by
  intro u
  have hreached : Reached s u := reached_run (reached_create hw) steps
  constructor
  · intro a ha hbusy
    let t₀ : Turn ρ σ := ⟨u, .act a⟩
    have hnext : Reached s (u.act a) := Reached.after (t := t₀) hreached
    have hact : (u.act a).transport.connection.isWanted = false ∧
        (u.act a).transport.connection ≠ .disconnected := by
      rcases ha with rfl | rfl
      · obtain ⟨hwanted, -, hstill⟩ := (ended_disconnect u).unwanted
        exact ⟨hwanted, hstill hbusy⟩
      · obtain ⟨hwanted, hstill⟩ := unwanted_stop hreached
        exact ⟨hwanted, hstill hbusy⟩
    refine ⟨hact.2, hnext.unready hact.1, fun later earlier t after hturns hearlier => ?_⟩
    obtain ⟨hbefore, hunwanting, hgoing⟩ := unwanting_before hnext hact.1 hact.2 hturns hearlier
    obtain ⟨es, hr⟩ := hbefore.recorded
    have hafter : Reached s t.after := hbefore.after
    have hmove := connection_of_unwanted hr hunwanting
    cases hends : t.ends with
    | true =>
      rw [hends, if_pos rfl] at hmove
      refine ⟨disengaged hunwanting, by rw [hmove]; rfl, by simp [hmove], fun _ => ?_⟩
      exact hafter.cleared hmove
    | false =>
      rw [hends, if_neg Bool.false_ne_true] at hmove
      refine ⟨disengaged hunwanting, by rw [hmove]; exact hunwanting.ready, ?_, nofun⟩
      simp [hmove, hgoing]
  · intro hrun
    refine ⟨hreached.idle hrun, fun later hlater t ht => ?_⟩
    obtain ⟨hafter, hstill, hunwanting⟩ := stopped_turns hreached hrun hlater t ht
    refine ⟨disengaged hunwanting, ?_, hafter.idle hstill⟩
    refine eq_false_of_ne_true fun hest => ?_
    obtain ⟨-, p, hp⟩ := establishes_iff.1 hest
    simpa [hp, Connection.isWanted] using hunwanting.wanted

/-- An attempt is cancelled while the report that it succeeded is on its way: neither a connect nor a
write comes through before that report, which ends it. -/
theorem cancellation_honoured_of_late_report :
    ∃ (w : Endpoint (Logged Radio.Simulated) Store.Memory)
      (steps : List (Step Radio.Simulated Store.Memory))
      (t : Turn Radio.Simulated Store.Memory),
      create {} none ⟨{}, []⟩ {} = .ok w ∧
      (w.runLogged steps).transport.connection.isConnecting = true ∧
      t ∈ turns [.act (.connect none), .act (.write [1]), .act .next]
        ((w.runLogged steps).act .disconnect) ∧
      t.event? = some .linkUp ∧ t.ends = true ∧
      (∀ c ∈ t.calls, c.1.engages = false) ∧ Cleared t.after := by
  let radio : Logged Radio.Simulated := ⟨{}, []⟩
  let steps : List (Step Radio.Simulated Store.Memory) :=
    [.act .start, .act (.connect (some ⟨1, 2, 3, 4, 5, 6⟩))]
  let later : List (Step Radio.Simulated Store.Memory) :=
    [.act (.connect none), .act (.write [1]), .act .next]
  have hw : create {} none radio ({} : Store.Memory) = .ok _ := rfl
  obtain ⟨-, -, hlater⟩ := (cancellation_honoured hw steps).1 .disconnect (.inl rfl) (by decide)
  obtain ⟨hcalls, -, -, hcleared⟩ := hlater later [_, _] _ [] rfl (by decide)
  exact ⟨_, steps, _, hw, by decide, by simp [turns], by decide, by decide, hcalls,
    hcleared (by decide)⟩

end Endpoint

end VehicleLink
