import VehicleLink.Proofs.Partners

/-!
# What couples a transport and its worker

`Coupled` is the invariant of a transport and the worker behind its radio, whatever calls and
reports are under way between them. It ties the connection to the last report on the link that was
handled, the worker's link to its last report of all, and both to the attempts that were asked for.
Every move keeps it while the queue of calls has room (`Coupled.move`, `coupled_moves`).
-/

namespace VehicleLink

/-! ## The last report and the last attempt -/

/-- The last report on the link. -/
def lastLink (es : List Event) : Option Event := (es.filter Event.isLink).getLast?

theorem lastLink_append (es fs : List Event) :
    lastLink (es ++ fs) = (lastLink fs).or (lastLink es) := by
  rw [lastLink, List.filter_append, List.getLast?_append]
  rfl

theorem lastLink_eq_none {es : List Event} (h : ∀ e ∈ es, e.isLink = false) :
    lastLink es = none := by
  have : es.filter Event.isLink = [] := List.filter_eq_nil_iff.2 fun e he => by simp [h e he]
  rw [lastLink, this]
  rfl

theorem lastLink_cons (e : Event) (es : List Event) :
    lastLink (e :: es) = (lastLink es).or (if e.isLink then some e else none) := by
  rw [← List.singleton_append, lastLink_append]
  cases h : e.isLink <;> simp [lastLink, h]

theorem lastLink_concat {e : Event} (h : e.isLink = true) (es : List Event) :
    lastLink (es ++ [e]) = some e := by
  rw [lastLink_append, lastLink_cons, h]
  rfl

/-- The address of the last attempt that was asked for. -/
def lastDialed (cs : List Call) : Option Address := (cs.filterMap Call.dialed?).getLast?

theorem lastDialed_append (cs ds : List Call) :
    lastDialed (cs ++ ds) = (lastDialed ds).or (lastDialed cs) := by
  rw [lastDialed, List.filterMap_append, List.getLast?_append]
  rfl

theorem dialed?_eq_none {c : Call} (h : c.isConnect = false) : c.dialed? = none := by
  cases c <;> first | rfl | cases h

theorem lastDialed_calm {cs : List Call} (h : ∀ c ∈ cs, c.isConnect = false) :
    lastDialed cs = none := by
  have : cs.filterMap Call.dialed? = [] :=
    List.filterMap_eq_nil_iff.2 fun c hc => dialed?_eq_none (h c hc)
  rw [lastDialed, this]
  rfl

theorem lastDialed_singleton (c : Call) : lastDialed [c] = c.dialed? := by
  cases h : c.dialed? <;> simp [lastDialed, h]

theorem lastDialed_of_getLast? {cs : List Call} {a : Address}
    (h : cs.getLast? = some (.connect a)) : lastDialed cs = some a := by
  obtain ⟨ds, rfl⟩ := List.getLast?_eq_some_iff.1 h
  rw [lastDialed_append, lastDialed_singleton]
  rfl

namespace Partners

variable {α σ : Type} {p : Partners α σ}

/-- The last report on the link that was handled, with the connection it found. -/
def lastHandled (p : Partners α σ) : Option (Connection × Event) :=
  (p.handled.filter fun h => h.2.isLink).getLast?

/-- A report of a link that came up and that the transport has kept or has already. -/
def keeps : Connection × Event → Bool
  | (.connecting _ false, .linkUp) => true
  | (.connected .., .linkUp) => true
  | _ => false

theorem keeps_linkDown (c : Connection) : keeps (c, .linkDown) = false := by
  rcases c with _ | ⟨a, _ | _⟩ | ⟨a, r, t⟩ <;> rfl

theorem keeps_linkUp {c : Connection} {e : Event} (h : keeps (c, e) = true) : e = .linkUp := by
  cases e with
  | linkUp => rfl
  | linkDown => rw [keeps_linkDown] at h; cases h
  | _ => rcases c with _ | ⟨a, _ | _⟩ | ⟨a, r, t⟩ <;> cases h

theorem keeps_cases (c : Connection) :
    c = .disconnected ∨ (∃ a, c = .connecting a true) ∨ keeps (c, .linkUp) = true := by
  rcases c with _ | ⟨a, _ | _⟩ | ⟨a, r, t⟩
  · exact .inl rfl
  · exact .inr (.inr rfl)
  · exact .inr (.inl ⟨a, rfl⟩)
  · exact .inr (.inr rfl)

/-! ## The invariant -/

/-- What holds of two partners at any moment. -/
structure Coupled (p : Partners α σ) : Prop where
  takesCalls : p.endpoint.radio.isOpen = true
  takesReports : p.worker.outbox.isOpen = true
  /-- The worker holds a link if and only if that was its last report on it. -/
  current : p.worker.current.isSome = true ↔
    (lastLink p.reports).or (p.lastHandled.map Prod.snd) = some .linkUp
  /-- The transport is connected if and only if it kept the link last reported. -/
  connected : p.endpoint.transport.connection.isConnected = true ↔
    ∃ h, p.lastHandled = some h ∧ keeps h = true
  /-- A link that was not wanted any more is gone or about to be closed. -/
  unwanted : ∀ a, p.lastHandled = some (.connecting a true, .linkUp) →
    p.worker.current = none ∨ .disconnect ∈ p.calls ∨ lastLink p.reports ≠ none
  dialed : ∀ q, p.worker.current = some q → lastDialed p.obeyed = some q.address
  peer : ∀ a, p.endpoint.transport.connection.peer? = some a →
    lastDialed (p.obeyed ++ p.calls) = some a
  /-- An attempt is in the queue of calls, or its outcome among the reports. -/
  attempted : p.endpoint.transport.connection.isConnecting = true →
    (∃ a, .connect a ∈ p.calls) ∨ lastLink p.reports ≠ none

variable [DeviceStore σ]

/-- Two partners before their first move. -/
def start (w : Endpoint CallQueue σ) (adapter : α) (limit : Nanos) : Partners α σ :=
  { endpoint := w, worker := { adapter, connectTimeout := limit } }

theorem coupled_start {s : LinkSettings} {target : Option String} {n : Nat} {store : σ}
    {w : Endpoint CallQueue σ}
    (hw : Endpoint.create s target ({ capacity := n } : CallQueue) store = .ok w)
    (adapter : α) (limit : Nanos) : Coupled (start w adapter limit) := by
  obtain ⟨a, devices, -, rfl⟩ := Endpoint.create_eq hw
  refine ⟨rfl, rfl, ?_, ?_, nofun, nofun, nofun, nofun⟩
  · exact ⟨nofun, nofun⟩
  · exact ⟨nofun, fun ⟨_, h, _⟩ => (by cases h)⟩

/-! ## The moves -/

theorem lastDialed_append_calm {ks cs : List Call} (h : ∀ c ∈ cs, c.isConnect = false) :
    lastDialed (ks ++ cs) = lastDialed ks := by
  rw [lastDialed_append, lastDialed_calm h]
  rfl

theorem lastDialed_append_dials {ks cs : List Call} {a : Address}
    (h : cs.getLast? = some (.connect a)) : lastDialed (ks ++ cs) = some a := by
  rw [lastDialed_append, lastDialed_of_getLast? h]
  rfl

omit [DeviceStore σ] in
/-- A move of the transport that handles no report on the link. -/
theorem Coupled.course {w' : Endpoint CallQueue σ} {cs : List Call} (h : Coupled p)
    (hq : Queues p.endpoint.radio w'.radio cs) (hc : Endpoint.Course p.endpoint w' cs) :
    Coupled { p with endpoint := w' } := by
  have hcalls : Partners.calls { p with endpoint := w' } = p.calls ++ cs := hq.waiting
  refine ⟨hq.isOpen.trans h.takesCalls, h.takesReports, h.current, ?_, ?_, h.dialed, ?_, ?_⟩
  · show w'.transport.connection.isConnected = true ↔ _
    cases hc with
    | calm hp hcs =>
      rw [SamePhase.isConnected hp]
      exact h.connected
    | searches hw hd =>
      have hno : w'.transport.connection.isConnected = false := by
        cases hd with
        | idle h => rw [h]; rfl
        | dials a h hcs => rw [h]; rfl
      have hbefore : p.endpoint.transport.connection.isConnected = false := by rw [hw]; rfl
      rw [hno, ← hbefore]
      exact h.connected
  · intro a ha
    rw [hcalls]
    exact (h.unwanted a ha).imp id (Or.imp (List.mem_append_left cs) id)
  · intro a ha
    rw [hcalls, ← List.append_assoc]
    cases hc with
    | calm hp hcs =>
      rw [lastDialed_append_calm hcs]
      exact h.peer a (hp.peer ▸ ha)
    | searches hw hd =>
      change w'.transport.connection.peer? = some a at ha
      cases hd with
      | idle h => rw [h] at ha; cases ha
      | dials b h hcs =>
        rw [h] at ha
        cases ha
        exact lastDialed_append_dials hcs
  · intro ha
    rw [hcalls]
    change w'.transport.connection.isConnecting = true at ha
    cases hc with
    | calm hp hcs =>
      rw [SamePhase.isConnecting hp] at ha
      exact (h.attempted ha).imp (fun ⟨a, hmem⟩ => ⟨a, List.mem_append_left cs hmem⟩) id
    | searches hw hd =>
      cases hd with
      | idle h => rw [h] at ha; cases ha
      | dials b h hcs =>
        exact .inl ⟨b, List.mem_append_right _ (List.mem_of_getLast? hcs)⟩

theorem lastHandled_concat {α σ : Type} {p : Partners α σ} {w' : Endpoint CallQueue σ}
    {v : Worker α} {c : Connection} {e : Event} (he : e.isLink = true) :
    lastHandled { p with endpoint := w', worker := v, handled := p.handled ++ [(c, e)] } =
      some (c, e) := by
  show List.getLast? (List.filter _ (p.handled ++ [(c, e)])) = _
  have hkept : [(c, e)].filter (fun h => h.2.isLink) = [(c, e)] := List.filter_cons_of_pos he
  rw [List.filter_append, List.getLast?_append, hkept]
  rfl

theorem lastHandled_concat_other {α σ : Type} {p : Partners α σ} {w' : Endpoint CallQueue σ}
    {v : Worker α} {c : Connection} {e : Event} (he : e.isLink = false) :
    lastHandled { p with endpoint := w', worker := v, handled := p.handled ++ [(c, e)] } =
      p.lastHandled := by
  show List.getLast? (List.filter _ (p.handled ++ [(c, e)])) = _
  have hnone : [(c, e)].filter (fun h => h.2.isLink) = [] :=
    List.filter_cons_of_neg (by rw [he]; exact Bool.false_ne_true)
  rw [List.filter_append, List.getLast?_append, hnone]
  rfl

def taken {α : Type} (w : Worker α) (rest : List Event) : Worker α :=
  { w with outbox := { w.outbox with waiting := rest } }

def delivered (p : Partners α σ) (e : Event) (rest : List Event) : Partners α σ :=
  { p with
    endpoint := p.endpoint.handle e
    worker := taken p.worker rest
    handled := p.handled ++ [(p.endpoint.transport.connection, e)] }

theorem Coupled.other {e : Event} {rest : List Event} (h : Coupled p)
    (hrest : p.reports = e :: rest) (he : e.isLink = false) : Coupled (p.delivered e rest) := by
  have hcalm : Endpoint.Calm p.endpoint (p.endpoint.handle e) :=
    Endpoint.calm_handle e _ (fun hup => by rw [hup] at he; cases he)
      (fun hdown => by rw [hdown] at he; cases he)
  obtain ⟨cs, hq, hc⟩ := hcalm.course
  have h' := h.course hq hc
  have hlast : lastLink p.reports = lastLink rest := by
    rw [hrest, lastLink_cons, he]
    exact Option.or_none
  have hhandled : (p.delivered e rest).lastHandled = p.lastHandled := lastHandled_concat_other he
  have hreports : lastLink (p.delivered e rest).reports = lastLink p.reports := hlast.symm
  refine ⟨h'.takesCalls, h.takesReports, ?_, ?_, ?_, h.dialed, h'.peer, ?_⟩
  · rw [hreports, hhandled]
    exact h.current
  · rw [hhandled]
    exact h'.connected
  · rw [hhandled, hreports]
    exact h'.unwanted
  · rw [hreports]
    exact h'.attempted

/-- The worker's link and its last report on it do not depend on how many were handled. -/
theorem Coupled.current_delivered {e : Event} {rest : List Event} (h : Coupled p)
    (hrest : p.reports = e :: rest) (he : e.isLink = true) :
    (p.delivered e rest).worker.current.isSome = true ↔
      (lastLink (p.delivered e rest).reports).or ((p.delivered e rest).lastHandled.map Prod.snd) =
        some .linkUp := by
  have hcurrent := h.current
  have hhandled : (p.delivered e rest).lastHandled = some (p.endpoint.transport.connection, e) :=
    lastHandled_concat he
  rw [hrest, lastLink_cons, he, if_pos rfl] at hcurrent
  rw [hhandled]
  show p.worker.current.isSome = true ↔ (lastLink rest).or (some e) = _
  rw [hcurrent]
  cases lastLink rest <;> exact Iff.rfl

section

omit [DeviceStore σ]

/-- A link that came up is kept if the report found an attempt that was still wanted, and stays if
it found a link. -/
theorem isConnected_of_upCourse {w w' : Endpoint CallQueue σ} {cs : List Call}
    (h : Endpoint.UpCourse w w' cs) :
    w'.transport.connection.isConnected = keeps (w.transport.connection, .linkUp) := by
  cases h with
  | ignored hc hw hcs =>
    rw [hw]
    cases hconn : w.transport.connection with
    | disconnected => rfl
    | connecting a t => rw [hconn] at hc; cases hc
    | connected a r t => rfl
  | cancelled a hc hc' hcs => rw [hc, hc']; rfl
  | kept a hc hc' hcs => rw [SamePhase.isConnected hc', hc]; rfl

theorem isConnecting_of_upCourse {w w' : Endpoint CallQueue σ} {cs : List Call}
    (h : Endpoint.UpCourse w w' cs) : w'.transport.connection.isConnecting = false := by
  cases h with
  | ignored hc hw hcs => rw [hw, hc]
  | cancelled b hc hc' hcs => rw [hc']; rfl
  | kept b hc hc' hcs => rw [SamePhase.isConnecting hc']; rfl

/-- An attempt that was cancelled before its link came up asks for the link to be closed. -/
theorem calls_of_cancelled {w w' : Endpoint CallQueue σ} {cs : List Call} {a : Address}
    (h : Endpoint.UpCourse w w' cs) (hc : w.transport.connection = .connecting a true)
    (haccepted : (w.submit .disconnect).1 = true) : .disconnect ∈ cs := by
  cases h with
  | ignored hc' hw hcs => rw [hc] at hc'; cases hc'
  | cancelled b _ hc' hcs => rw [hcs, haccepted]; exact List.mem_singleton_self _
  | kept b hc' => rw [hc] at hc'; cases hc'

end

theorem Coupled.linkUp {rest : List Event} (h : Coupled p) (hroom : p.HasRoom)
    (hrest : p.reports = .linkUp :: rest) : Coupled (p.delivered .linkUp rest) := by
  obtain ⟨cs, hq, hup⟩ := Endpoint.upCourse_onLinkUp p.endpoint
  have hcalls : (p.delivered .linkUp rest).calls = p.calls ++ cs := hq.waiting
  have hhandled : (p.delivered .linkUp rest).lastHandled =
      some (p.endpoint.transport.connection, .linkUp) := lastHandled_concat rfl
  refine ⟨hq.isOpen.trans h.takesCalls, h.takesReports, h.current_delivered hrest rfl, ?_, ?_,
    h.dialed, ?_, ?_⟩
  · rw [hhandled]
    show p.endpoint.onLinkUp.transport.connection.isConnected = true ↔ _
    rw [isConnected_of_upCourse hup]
    exact ⟨fun hk => ⟨_, rfl, hk⟩, fun ⟨_, heq, hk⟩ => by cases heq; exact hk⟩
  · intro a ha
    rw [hhandled] at ha
    have hconn : p.endpoint.transport.connection = .connecting a true :=
      congrArg Prod.fst (Option.some.inj ha)
    have hmem := calls_of_cancelled hup hconn (submit_accepted h.takesCalls hroom .disconnect)
    rw [hcalls]
    exact .inr (.inl (List.mem_append_right _ hmem))
  · intro a ha
    rw [hcalls, ← List.append_assoc]
    change p.endpoint.onLinkUp.transport.connection.peer? = some a at ha
    cases hup with
    | ignored hc hw hcs =>
      rw [hcs, List.append_nil]
      rw [hw] at ha
      exact h.peer a ha
    | cancelled b hc hc' hcs => rw [hc'] at ha; cases ha
    | kept b hc hc' hcs =>
      rw [lastDialed_append_calm hcs]
      rw [hc'.peer] at ha
      exact h.peer a (by rw [hc]; exact ha)
  · intro ha
    change p.endpoint.onLinkUp.transport.connection.isConnecting = true at ha
    rw [isConnecting_of_upCourse hup] at ha
    cases ha

theorem Coupled.linkDown {rest : List Event} (h : Coupled p)
    (hrest : p.reports = .linkDown :: rest) : Coupled (p.delivered .linkDown rest) := by
  obtain ⟨cs, hq, hd⟩ := Endpoint.dialing_onLinkDown p.endpoint
  have hcalls : (p.delivered .linkDown rest).calls = p.calls ++ cs := hq.waiting
  have hhandled : (p.delivered .linkDown rest).lastHandled =
      some (p.endpoint.transport.connection, .linkDown) := lastHandled_concat rfl
  refine ⟨hq.isOpen.trans h.takesCalls, h.takesReports, h.current_delivered hrest rfl, ?_, ?_,
    h.dialed, ?_, ?_⟩
  · rw [hhandled]
    show p.endpoint.onLinkDown.transport.connection.isConnected = true ↔ _
    have hno : p.endpoint.onLinkDown.transport.connection.isConnected = false := by
      cases hd with
      | idle h => rw [h]; rfl
      | dials a h hcs => rw [h]; rfl
    rw [hno]
    refine ⟨fun h => (by cases h), ?_⟩
    rintro ⟨_, ⟨⟩, hk⟩
    rw [keeps_linkDown] at hk
    cases hk
  · intro a ha
    rw [hhandled] at ha
    cases congrArg Prod.snd (Option.some.inj ha)
  · intro a ha
    rw [hcalls, ← List.append_assoc]
    change p.endpoint.onLinkDown.transport.connection.peer? = some a at ha
    cases hd with
    | idle h => rw [h] at ha; cases ha
    | dials b h hcs =>
      rw [h] at ha
      cases ha
      exact lastDialed_append_dials hcs
  · intro ha
    rw [hcalls]
    change p.endpoint.onLinkDown.transport.connection.isConnecting = true at ha
    cases hd with
    | idle h => rw [h] at ha; cases ha
    | dials b h hcs => exact .inl ⟨b, List.mem_append_right _ (List.mem_of_getLast? hcs)⟩

/-- What the last report on the link is after a move of the worker. -/
theorem lastLink_linkMove {dialed : Option Address} {w v : Worker α} (h : LinkMove dialed w v) :
    (dialed = none ∧ v.current = w.current ∧
      lastLink v.outbox.waiting = lastLink w.outbox.waiting) ∨
    (v.current = none ∧ lastLink v.outbox.waiting = some .linkDown) ∨
    ∃ q, dialed = some q.address ∧ v.current = some q ∧
      lastLink v.outbox.waiting = some .linkUp := by
  cases h with
  | kept es hd current outbox hes =>
    refine .inl ⟨hd, current, ?_⟩
    rw [outbox, Channel.added, lastLink_append, lastLink_eq_none hes]
    rfl
  | closed current outbox =>
    refine .inr (.inl ⟨current, ?_⟩)
    rw [outbox]
    exact lastLink_concat rfl _
  | opened q hd current outbox =>
    refine .inr (.inr ⟨q, hd, current, ?_⟩)
    rw [outbox]
    exact lastLink_concat rfl _

theorem isOpen_linkMove {dialed : Option Address} {w v : Worker α} (h : LinkMove dialed w v) :
    v.outbox.isOpen = w.outbox.isOpen := by
  cases h with
  | kept es hd current outbox hes => rw [outbox]; rfl
  | closed current outbox => rw [outbox]; rfl
  | opened q hd current outbox => rw [outbox]; rfl

/-- From two partners to others by a move of the worker, in which `dialed` was asked for. -/
structure Worked (dialed : Option Address) (p p' : Partners α σ) : Prop where
  transport : p'.endpoint.transport = p.endpoint.transport
  isOpen : p'.endpoint.radio.isOpen = p.endpoint.radio.isOpen
  handled : p'.handled = p.handled
  link : LinkMove dialed p.worker p'.worker
  all : p'.obeyed ++ p'.calls = p.obeyed ++ p.calls
  dials : lastDialed p'.obeyed = dialed.or (lastDialed p.obeyed)
  calls : ∀ c ∈ p.calls, c ∈ p'.calls ∨
    c.dialed? = dialed ∧ (c = .disconnect → p'.worker.current = none)

section

variable {p' : Partners α σ} {dialed : Option Address}

omit [DeviceStore σ]

theorem Worked.lastHandled (h : Worked dialed p p') : p'.lastHandled = p.lastHandled := by
  unfold Partners.lastHandled
  rw [h.handled]

/-- Reports on the link do not get lost. -/
theorem Worked.reported (h : Worked dialed p p') (hne : lastLink p.reports ≠ none) :
    lastLink p'.reports ≠ none := by
  rcases lastLink_linkMove h.link with ⟨-, -, hlast⟩ | ⟨-, hlast⟩ | ⟨q, -, -, hlast⟩
  · exact hlast ▸ hne
  · exact hlast ▸ Option.some_ne_none _
  · exact hlast ▸ Option.some_ne_none _

theorem Worked.current (h : Worked dialed p p') (hp : Coupled p) :
    p'.worker.current.isSome = true ↔
      (lastLink p'.reports).or (p'.lastHandled.map Prod.snd) = some .linkUp := by
  rw [h.lastHandled]
  show _ ↔ (lastLink p'.worker.outbox.waiting).or _ = _
  rcases lastLink_linkMove h.link with ⟨-, hcurrent, hlast⟩ | ⟨hcurrent, hlast⟩ |
    ⟨q, -, hcurrent, hlast⟩
  · rw [hcurrent, hlast]
    exact hp.current
  · rw [hcurrent, hlast]
    exact ⟨nofun, nofun⟩
  · rw [hcurrent, hlast]
    exact ⟨fun _ => rfl, fun _ => rfl⟩

theorem Worked.unwanted (h : Worked dialed p p') (hp : Coupled p) (a : Address)
    (ha : p'.lastHandled = some (.connecting a true, .linkUp)) :
    p'.worker.current = none ∨ .disconnect ∈ p'.calls ∨ lastLink p'.reports ≠ none := by
  rw [h.lastHandled] at ha
  rcases hp.unwanted a ha with hnone | hmem | hne
  · rcases lastLink_linkMove h.link with ⟨-, hcurrent, -⟩ | ⟨hcurrent, -⟩ | ⟨q, -, -, hlast⟩
    · exact .inl (hcurrent.trans hnone)
    · exact .inl hcurrent
    · exact .inr (.inr (hlast ▸ Option.some_ne_none _))
  · rcases h.calls _ hmem with hmem | ⟨-, hgone⟩
    · exact .inr (.inl hmem)
    · exact .inl (hgone rfl)
  · exact .inr (.inr (h.reported hne))

theorem Worked.current_dialed (h : Worked dialed p p') (hp : Coupled p) (q : Peripheral)
    (hq : p'.worker.current = some q) : lastDialed p'.obeyed = some q.address := by
  rw [h.dials]
  rcases lastLink_linkMove h.link with ⟨hd, hcurrent, -⟩ | ⟨hcurrent, -⟩ | ⟨q', hd, hcurrent, -⟩
  · rw [hd]
    exact hp.dialed q (hcurrent ▸ hq)
  · rw [hcurrent] at hq
    cases hq
  · rw [hcurrent] at hq
    cases hq
    rw [hd]
    rfl

theorem Worked.attempted (h : Worked dialed p p') (hp : Coupled p)
    (ha : p'.endpoint.transport.connection.isConnecting = true) :
    (∃ a, .connect a ∈ p'.calls) ∨ lastLink p'.reports ≠ none := by
  rw [h.transport] at ha
  rcases hp.attempted ha with ⟨a, hmem⟩ | hne
  · rcases h.calls _ hmem with hmem | ⟨hd, -⟩
    · exact .inl ⟨a, hmem⟩
    · -- the attempt was carried out, so its outcome was reported
      right
      rcases lastLink_linkMove h.link with ⟨hnone, -, -⟩ | ⟨-, hlast⟩ | ⟨q, -, -, hlast⟩
      · rw [hnone] at hd
        cases hd
      · exact hlast ▸ Option.some_ne_none _
      · exact hlast ▸ Option.some_ne_none _
  · exact .inr (h.reported hne)

theorem Coupled.worked (hp : Coupled p) (h : Worked dialed p p') : Coupled p' where
  takesCalls := h.isOpen.trans hp.takesCalls
  takesReports := (isOpen_linkMove h.link).trans hp.takesReports
  current := h.current hp
  connected := by
    rw [h.transport, h.lastHandled]
    exact hp.connected
  unwanted := h.unwanted hp
  dialed := h.current_dialed hp
  peer a ha := by
    rw [h.transport] at ha
    rw [h.all]
    exact hp.peer a ha
  attempted := h.attempted hp

end

variable [Adapter α]

theorem deliver_nil (h : p.worker.outbox.waiting = []) : p.move .deliver = p := by
  unfold Partners.move Channel.receive
  rw [h]

theorem deliver_cons {e : Event} {rest : List Event} (h : p.worker.outbox.waiting = e :: rest) :
    p.move .deliver = p.delivered e rest := by
  unfold Partners.move Channel.receive
  rw [h]
  rfl

theorem obey_nil (h : p.endpoint.radio.waiting = []) : p.move .obey = p := by
  unfold Partners.move
  rw [h]

theorem obey_cons {c : Call} {rest : List Call} (h : p.endpoint.radio.waiting = c :: rest) :
    p.move .obey = { p with
      endpoint := { p.endpoint with radio := { p.endpoint.radio with waiting := rest } }
      worker := p.worker.step (.call c)
      obeyed := p.obeyed ++ [c] } := by
  unfold Partners.move
  dsimp only
  rw [h]

theorem worked_obey {c : Call} {rest : List Call} (h : Coupled p)
    (hrest : p.endpoint.radio.waiting = c :: rest) : Worked c.dialed? p (p.move .obey) := by
  have hcalls : p.calls = c :: rest := hrest
  rw [obey_cons hrest]
  refine ⟨rfl, rfl, rfl, Worker.linkMove_step h.takesReports (.call c), ?_, ?_, ?_⟩
  · rw [hcalls, List.append_assoc]
    rfl
  · rw [lastDialed_append, lastDialed_singleton]
  · intro k hk
    rw [hcalls] at hk
    rcases List.mem_cons.1 hk with rfl | hk
    · refine .inr ⟨rfl, fun hdis => ?_⟩
      rw [hdis]
      exact Worker.step_disconnect_current p.worker
    · exact .inl hk

/-- Whatever moves them, two partners stay coupled. -/
theorem Coupled.move (h : Coupled p) (hroom : p.HasRoom) (m : Move α σ) : Coupled (p.move m) := by
  cases m with
  | consumer a =>
    unfold Partners.move
    dsimp only
    split
    · rename_i ha
      obtain ⟨cs, hq, hc⟩ := Endpoint.course_act ha p.endpoint
      exact h.course hq hc
    · exact h
  | deliver =>
    cases hrest : p.worker.outbox.waiting with
    | nil =>
      rw [deliver_nil hrest]
      exact h
    | cons e rest =>
      rw [deliver_cons hrest]
      cases he : e.isLink with
      | false => exact h.other hrest he
      | true =>
        cases e with
        | linkUp => exact h.linkUp hroom hrest
        | linkDown => exact h.linkDown hrest
        | _ => cases he
  | obey =>
    cases hrest : p.endpoint.radio.waiting with
    | nil =>
      rw [obey_nil hrest]
      exact h
    | cons c rest => exact h.worked (worked_obey h hrest)
  | stir x =>
    have stirred (hx : x.dialed? = none) : Coupled { p with worker := p.worker.step x } :=
      h.worked ⟨rfl, rfl, rfl, hx ▸ Worker.linkMove_step h.takesReports x, rfl, rfl,
        fun c hc => .inl hc⟩
    cases x with
    | call c => exact h
    | report e => exact stirred rfl
    | scanOver => exact stirred rfl
    | notified id u bytes => exact stirred rfl
    | streamEnded id => exact stirred rfl
  | adapter f => exact ⟨h.1, h.2, h.3, h.4, h.5, h.6, h.7, h.8⟩
  | store f => exact ⟨h.1, h.2, h.3, h.4, h.5, h.6, h.7, h.8⟩

theorem coupled_moves (h : Coupled p) {ms : List (Move α σ)} (hroom : Roomy ms p) :
    Coupled (p.moves ms) := by
  induction ms generalizing p with
  | nil => exact h
  | cons m ms ih => exact ih (h.move hroom.1 m) hroom.2

end Partners

end VehicleLink
