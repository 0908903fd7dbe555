import VehicleLink.Proofs.Run
import VehicleLink.Proofs.Calm
import VehicleLink.Proofs.Responses
import VehicleLink.Worker.Remote

/-!
# A transport and its worker

The transport hands its calls to a queue from which a worker takes them, and handles the reports
that the worker sends. `Partners` is the two together; a `Move` is a call of a consumer, the
handling of one report, the carrying out of one call, anything else that moves the worker, or a
change of the adapter or the store by itself.

Two summaries are all that is needed of either side: what a move of the worker does to its link and
to the reports (`LinkMove`), and what a move of the transport does to its connection and to the
calls (`Course`).
-/

namespace VehicleLink

def Event.isLink : Event → Bool
  | .linkUp => true
  | .linkDown => true
  | _ => false

def Call.dialed? : Call → Option Address
  | .connect a => some a
  | _ => none

def Stimulus.dialed? : Stimulus → Option Address
  | .call c => c.dialed?
  | _ => none

/-- A transport with the worker behind its radio, and what happened between them. -/
structure Partners (α σ : Type) where
  endpoint : Endpoint CallQueue σ
  worker : Worker α
  /-- The reports that were handled, each with the connection it found. -/
  handled : List (Connection × Event) := []
  /-- The calls that were carried out. -/
  obeyed : List Call := []

/-- One move of two partners. -/
inductive Move (α σ : Type) where
  | consumer (a : Action)
  | deliver
  | obey
  | stir (x : Stimulus)
  | adapter (f : α → α)
  | store (f : σ → σ)

namespace Partners

variable {α σ : Type} [Adapter α] [DeviceStore σ]

def calls {α σ : Type} (p : Partners α σ) : List Call := p.endpoint.radio.waiting

def reports {α σ : Type} (p : Partners α σ) : List Event := p.worker.outbox.waiting

/-- Carries out a move; one that is not possible changes nothing. -/
def move (m : Move α σ) (p : Partners α σ) : Partners α σ :=
  match m with
  | .consumer a => if a.byConsumer then { p with endpoint := p.endpoint.act a } else p
  | .deliver =>
    match p.worker.outbox.receive with
    | (none, _) => p
    | (some e, outbox) =>
      { p with
        endpoint := p.endpoint.handle e
        worker := { p.worker with outbox }
        handled := p.handled ++ [(p.endpoint.transport.connection, e)] }
  | .obey =>
    match p.endpoint.radio.waiting with
    | [] => p
    | c :: rest =>
      { p with
        endpoint := { p.endpoint with radio := { p.endpoint.radio with waiting := rest } }
        worker := p.worker.step (.call c)
        obeyed := p.obeyed ++ [c] }
  | .stir (.call _) => p
  | .stir x => { p with worker := p.worker.step x }
  | .adapter f => { p with worker := { p.worker with adapter := f p.worker.adapter } }
  | .store f => { p with endpoint := { p.endpoint with store := f p.endpoint.store } }

def moves (ms : List (Move α σ)) (p : Partners α σ) : Partners α σ :=
  ms.foldl (fun p m => p.move m) p

def HasRoom {α σ : Type} (p : Partners α σ) : Prop := p.calls.length < p.endpoint.radio.capacity

/-- The queue of calls has room whenever a move begins. -/
def Roomy : List (Move α σ) → Partners α σ → Prop
  | [], _ => True
  | m :: ms, p => p.HasRoom ∧ Roomy ms (p.move m)

def Quiet {α σ : Type} (p : Partners α σ) : Prop := p.calls = [] ∧ p.reports = []

instance {α σ : Type} (p : Partners α σ) : Decidable p.HasRoom :=
  inferInstanceAs (Decidable (_ < _))

instance {α σ : Type} (p : Partners α σ) : Decidable p.Quiet := inferInstanceAs (Decidable (_ ∧ _))

instance decidableRoomy : (ms : List (Move α σ)) → (p : Partners α σ) → Decidable (Roomy ms p)
  | [], _ => .isTrue trivial
  | m :: ms, p =>
    have := decidableRoomy ms (p.move m)
    inferInstanceAs (Decidable (_ ∧ _))

end Partners

/-! ## The worker's side -/

def Channel.added (es : List Event) (c : Channel) : Channel :=
  { c with waiting := c.waiting ++ es }

/-- What a move of a worker does to its link and to its reports; `dialed` is the address of a call
for a connection, if it was one. -/
inductive LinkMove {α : Type} (dialed : Option Address) (w w' : Worker α) : Prop
  | kept (es : List Event) (h : dialed = none) (current : w'.current = w.current)
      (outbox : w'.outbox = w.outbox.added es) (hes : ∀ e ∈ es, e.isLink = false)
  | closed (current : w'.current = none) (outbox : w'.outbox = w.outbox.added [.linkDown])
  | opened (p : Peripheral) (h : dialed = some p.address) (current : w'.current = some p)
      (outbox : w'.outbox = w.outbox.added [.linkUp])

namespace Worker

variable {α : Type} {w w' : Worker α}

/-- A step opens a link only if it is a call for a connection, and reports on the link if and only
if there is something to report. -/
theorem linkMove_of_responds {x : Stimulus} {rs : List (Request × Bool)} {es : List Event}
    {after : Holding} (h : Responds w x rs es after) (hcurrent : w'.current = after.current)
    (houtbox : w'.outbox = w.outbox.added es) : LinkMove x.dialed? w w' := by
  cases h with
  | connects p closes => exact .opened p rfl hcurrent houtbox
  | connectFails p closes => exact .closed hcurrent houtbox
  | unknown a closes => exact .closed hcurrent houtbox
  | disconnects p ok link => exact .closed hcurrent houtbox
  | notifyFails c p ok link unread => exact .closed hcurrent houtbox
  | loses p link => exact .closed hcurrent houtbox
  | noLink link => exact .kept _ rfl (hcurrent.trans link.symm) houtbox (by simp)
  | notifiesNothing c link => exact .kept _ rfl (hcurrent.trans link.symm) houtbox (by simp)
  | _ => exact .kept _ rfl hcurrent houtbox (by simp [Event.isLink])

variable [Adapter α]

theorem linkMove_step (h : w.outbox.isOpen = true) (x : Stimulus) :
    LinkMove x.dialed? w (w.step x) := by
  obtain ⟨rs, es, -, hsent, hresponds⟩ := responds_step x w
  refine linkMove_of_responds hresponds rfl (hsent.trans ?_)
  rw [Channel.sendAll, if_pos h]
  rfl

theorem step_disconnect_current (w : Worker α) : (w.step (.call .disconnect)).current = none := by
  obtain ⟨rs, es, -, -, hresponds⟩ := responds_step (.call .disconnect) w
  show (w.step (.call .disconnect)).holding.current = none
  generalize (w.step (.call .disconnect)).holding = after at hresponds ⊢
  cases hresponds <;> rfl

end Worker

/-! ## The transport's side -/

/-- From one queue to another by appending calls. -/
structure Queues (q q' : CallQueue) (cs : List Call) : Prop where
  waiting : q'.waiting = q.waiting ++ cs
  isOpen : q'.isOpen = q.isOpen
  capacity : q'.capacity = q.capacity

theorem Queues.refl (q : CallQueue) : Queues q q [] := ⟨(List.append_nil _).symm, rfl, rfl⟩

theorem Queues.trans {q q' q'' : CallQueue} {cs ds : List Call} (h₁ : Queues q q' cs)
    (h₂ : Queues q' q'' ds) : Queues q q'' (cs ++ ds) :=
  ⟨by rw [h₂.waiting, h₁.waiting, List.append_assoc], h₂.isOpen.trans h₁.isOpen,
    h₂.capacity.trans h₁.capacity⟩

theorem queues_submit (c : Call) (q : CallQueue) :
    Queues q (q.submit c).2 (if (q.submit c).1.accepted then [c] else []) := by
  unfold CallQueue.submit
  split
  · exact ⟨rfl, rfl, rfl⟩
  · exact .refl q

theorem submit_accepted {q : CallQueue} (hopen : q.isOpen = true)
    (hroom : q.waiting.length < q.capacity) (c : Call) : (q.submit c).1.accepted = true := by
  rw [CallQueue.submit, if_pos (by rw [hopen]; simpa using hroom)]

namespace Endpoint

variable {σ : Type} {w w' : Endpoint CallQueue σ} {cs : List Call}

/-- An operation that makes calls of a kind queues some of them. -/
theorem Asks.queues {P : Call → Prop} (h : Asks P w w') :
    ∃ cs, Queues w.radio w'.radio cs ∧ ∀ c ∈ cs, P c := by
  refine h.induction (K := fun r _ => ∃ cs, Queues w.radio r cs ∧ ∀ c ∈ cs, P c) ?_
    ⟨[], .refl _, fun _ hc => absurd hc List.not_mem_nil⟩
  rintro c r i hc ⟨cs, hq, hcs⟩
  refine ⟨_, hq.trans (queues_submit c r), fun k hk => ?_⟩
  rcases List.mem_append.1 hk with hk | hk
  · exact hcs k hk
  · split at hk
    · rw [List.mem_singleton.1 hk]
      exact hc
    · cases hk

/-- The end of a search, with the calls that were queued in it: there is no connection, or an
attempt is under way that nothing was queued after. -/
inductive Dialing (w' : Endpoint CallQueue σ) (cs : List Call) : Prop
  | idle (h : w'.transport.connection = .disconnected)
  | dials (a : Address) (h : w'.transport.connection = .connecting a false)
      (hcs : cs.getLast? = some (.connect a))

theorem Dialing.after (h : Dialing w' cs) (ks : List Call) : Dialing w' (ks ++ cs) := by
  cases h with
  | idle h => exact .idle h
  | dials a h hcs => exact .dials a h (by rw [List.getLast?_append, hcs]; rfl)

theorem Attempted.dialing {cs : List Candidate} (h : Attempted cs w w') :
    ∃ ks, Queues w.radio w'.radio ks ∧ Dialing w' ks := by
  rcases h.outcome with hnone | ⟨refused, c, rest, hsplit, hrest, hconn, v, hv, hacc, hair⟩
  · obtain ⟨ks, hq, -⟩ := h.asks.queues
    exact ⟨ks, hq, .idle hnone.connection⟩
  · obtain ⟨ks, hq, -⟩ := hv.queues
    have hlast := queues_submit (.connect c.address) v.radio
    have hradio : w'.radio = (v.radio.submit (.connect c.address)).2 := congrArg Prod.fst hair
    change (v.radio.submit (.connect c.address)).1.accepted = true at hacc
    rw [hacc, if_pos rfl] at hlast
    refine ⟨ks ++ [.connect c.address], by rw [hradio]; exact hq.trans hlast, ?_⟩
    exact .dials c.address hconn List.getLast?_concat

/-- What an action of a consumer does to the connection, with the calls that were queued in it. -/
inductive Course (w w' : Endpoint CallQueue σ) (cs : List Call) : Prop
  | calm (h : SamePhase w.transport.connection w'.transport.connection)
      (hcs : ∀ c ∈ cs, c.isConnect = false)
  | searches (h : w.transport.connection = .disconnected) (hd : Dialing w' cs)

theorem Calm.course (h : Calm w w') : ∃ cs, Queues w.radio w'.radio cs ∧ Course w w' cs := by
  obtain ⟨cs, hq, hcs⟩ := h.asks.queues
  exact ⟨cs, hq, .calm h.connection hcs⟩

theorem Seek.course {target : Option Address} (h : Seek target w w') :
    ∃ cs, Queues w.radio w'.radio cs ∧ Course w w' cs := by
  cases h with
  | idle h => exact h.calm.course
  | @tries u cs hw hu hcs =>
    obtain ⟨ks, hq, -⟩ := hu.asks.queues
    obtain ⟨ls, hq', hd⟩ := (attempted_tryCandidates cs (hu.link.connection.trans hw)).dialing
    exact ⟨ks ++ ls, Queues.trans hq hq', .searches hw (hd.after ks)⟩

section Store

variable [DeviceStore σ]

theorem course_act {a : Action} (ha : a.byConsumer = true) (w : Endpoint CallQueue σ) :
    ∃ cs, Queues w.radio (w.act a).radio cs ∧ Course w (w.act a) cs := by
  have same {w' : Endpoint CallQueue σ} (hradio : w'.radio = w.radio)
      (hconn : w'.transport.connection = w.transport.connection) :
      ∃ cs, Queues w.radio w'.radio cs ∧ Course w w' cs :=
    ⟨[], by rw [hradio]; exact .refl _,
      .calm (.of_eq hconn) fun _ hc => absurd hc List.not_mem_nil⟩
  cases a with
  | start => exact same rfl rfl
  | stop => exact (calm_stop w).course
  | connect target => exact (seek_connect target w).course
  | disconnect => exact (ended_disconnect w).calm.course
  | pollAt instant => exact (seek_pollAt instant w).course
  | startScan => exact (aside_beginScan w).calm.course
  | write bytes => exact (written_write bytes w).calm.course
  | read n => exact (calm_read n w).course
  | setTarget target =>
    obtain ⟨policy, heq⟩ := setTarget_eq target w
    rw [Endpoint.act, heq]
    exact same rfl rfl
  | drainDue => exact (drained_drain w).calm.course
  | handle e => cases ha
  | next => cases ha
  | raise e => cases ha
  | wait d => exact same rfl rfl

/-- The handling of a report that a link came up. -/
inductive UpCourse (w w' : Endpoint CallQueue σ) (cs : List Call) : Prop
  | ignored (h : w.transport.connection.isConnecting = false) (hw : w' = w) (hcs : cs = [])
  | cancelled (a : Address) (h : w.transport.connection = .connecting a true)
      (h' : w'.transport.connection = .disconnected)
      (hcs : cs = if (w.submit .disconnect).1 then [.disconnect] else [])
  | kept (a : Address) (h : w.transport.connection = .connecting a false)
      (h' : SamePhase (.connected a false false) w'.transport.connection)
      (hcs : ∀ c ∈ cs, c.isConnect = false)

theorem upCourse_onLinkUp (w : Endpoint CallQueue σ) :
    ∃ cs, Queues w.radio w.onLinkUp.radio cs ∧ UpCourse w w.onLinkUp cs := by
  have hup := linkUpDone_onLinkUp w
  generalize w.onLinkUp = w' at hup ⊢
  have hopen {a : Address} {u : Endpoint CallQueue σ} (ho : Opened a w u) :
      Asks (fun c => c.isConnect = false) w (u.submit .discover).2 :=
    (ho.asks.mono no_connect_of_scan).trans (.submit _ rfl)
  cases hup with
  | unexpected h => exact ⟨[], .refl _, .ignored h rfl rfl⟩
  | cancelled a h traffic connection candidates air now =>
    have hradio : w'.radio = (w.radio.submit .disconnect).2 := congrArg Prod.fst air
    exact ⟨_, by rw [hradio]; exact queues_submit _ _, .cancelled a h connection rfl⟩
  | @kept u a h opened taken =>
    obtain ⟨cs, hq, hcs⟩ := (hopen opened).queues
    exact ⟨cs, hq, .kept a h (.of_eq opened.connection) hcs⟩
  | @dropped u _ a h opened refused dropped =>
    have hcalm := dropped.calm (w := (u.submit .discover).2) opened.connection
    obtain ⟨cs, hq, hcs⟩ := ((hopen opened).trans hcalm.asks).queues
    refine ⟨cs, hq, .kept a h ?_ hcs⟩
    rw [dropped.connection]
    exact ⟨rfl, rfl⟩

/-- The handling of a report that a link is down leaves a connection only by a new attempt. -/
theorem dialing_onLinkDown (w : Endpoint CallQueue σ) :
    ∃ cs, Queues w.radio w.onLinkDown.radio cs ∧ Dialing w.onLinkDown cs := by
  have hdown := linkDownDone_onLinkDown w
  generalize w.onLinkDown = w' at hdown ⊢
  cases hdown with
  | ignored h => exact ⟨[], .refl _, .idle h⟩
  | failed a h =>
    have ha := attempted_tryCandidates (w := w.gone.update (Transport.noteError (.connectFailed a)))
      w.transport.candidates rfl
    exact ha.dialing
  | cancelled a h => exact ⟨[], .refl _, .idle rfl⟩
  | lost a ready h => exact ⟨[], .refl _, .idle rfl⟩
  | closed a ready h => exact ⟨[], .refl _, .idle rfl⟩

end Store

end Endpoint

end VehicleLink
