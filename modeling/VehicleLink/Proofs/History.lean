import VehicleLink.Proofs.Sound
import VehicleLink.Proofs.Warrants
import Mathlib.Data.List.Induction

/-!
# Histories

The history of a run lists the events that were handled and the calls that were made, each with its
answer, in order (`history`). It determines the connection (`Connection.replay`), and each entry is
allowed by those before it (`Lawful`).

`Recorded h t` is what a transport `t` and the history `h` that led to it have in common. Each
operation adds its entries and keeps it (`Moves`), so every run does (`recorded_run`).
-/

namespace VehicleLink

/-- Something that a run did or to which it reacted. -/
inductive Entry where
  | handled (e : Event)
  | called (c : Call) (accepted : Bool)
  deriving DecidableEq

/-- The connection after something happened. -/
def Connection.after (c : Connection) : Entry → Connection
  | .handled .linkUp =>
    match c.up with
    | .ok (_, connection) => connection
    | .error _ => c
  | .handled .linkDown => c.down.2
  | .called (.connect a) true =>
    match c.begin a with
    | .ok connection => connection
    | .error _ => c
  | .called .disconnect _ => c.requestTeardown?.getD c
  | .called (.enableNotify _) true => c.markReady
  | _ => c

def Connection.replay (h : List Entry) : Connection := h.foldl Connection.after .disconnected

theorem Connection.replay_append (h es : List Entry) :
    replay (h ++ es) = es.foldl Connection.after (replay h) := List.foldl_append ..

namespace Entry

def call? : Entry → Option (Call × Bool)
  | .called c accepted => some (c, accepted)
  | .handled _ => none

/-- A call that ends what the attempt before it began. -/
def breaksOff : Entry → Bool
  | .called (.connect _) _ => true
  | .called .disconnect _ => true
  | _ => false

/-- After it no fragment waits for its report. -/
def settles : Entry → Bool
  | .called (.connect _) _ => true
  | .handled (.writeComplete _) => true
  | _ => false

/-! ## What a history tells -/

/-- The last attempt was taken up, and nothing broke it off. -/
def Dialed : List Entry → Prop :=
  Since (fun _ x => ∃ a, x = .called (.connect a) true) fun x => x.breaksOff = false

/-- Since then the discovery of services was taken up. -/
def Discovered : List Entry → Prop :=
  Since (fun before x => Dialed before ∧ x = .called .discover true) fun x => x.breaksOff = false

/-- And since then notifications were enabled. -/
def Notified : List Entry → Prop :=
  Since (fun before x => Discovered before ∧ ∃ k, x = .called (.enableNotify k) true)
    fun x => x.breaksOff = false

/-- A fragment was sent on the last link of which no report has come. -/
def Unanswered : List Entry → Prop :=
  Since (fun _ x => ∃ k fragment, x = .called (.write k fragment) true) fun x => x.settles = false

/-- What may follow a history. -/
def Allowed (before : List Entry) : Entry → Prop
  | .called (.connect _) _ => Connection.replay before = .disconnected
  | .called (.write ..) accepted => Notified before ∧ (accepted = true → ¬ Unanswered before)
  | _ => True

def Lawful (h : List Entry) : Prop := ∀ before x after, h = before ++ x :: after → Allowed before x

theorem lawful_iff {h : List Entry} :
    Lawful h ↔ ¬ Since (fun before x => ¬ Allowed before x) (fun _ => True) h := by
  simp [Lawful, Since]

theorem lawful_nil : Lawful [] := by simp [lawful_iff, not_since_nil]

theorem lawful_concat {h : List Entry} {x : Entry} :
    Lawful (h ++ [x]) ↔ Lawful h ∧ Allowed h x := by
  simp [lawful_iff, since_concat, and_comm]

end Entry

/-- Whether there is an attempt or a link that no one asked to end. -/
def Connection.isWanted : Connection → Bool
  | .disconnected => false
  | .connecting _ teardown => !teardown
  | .connected _ _ teardown => !teardown

theorem Connection.unwanted_of_requestTeardown {c c' : Connection}
    (h : c.requestTeardown? = some c') : c'.isWanted = false ∧ c'.isReady = false := by
  cases c <;> cases h <;> exact ⟨rfl, rfl⟩

open Entry

/-! ## The invariant -/

/-- A lawful history with the connection that it leads to. -/
structure Tracked (h : List Entry) (c : Connection) : Prop where
  lawful : Lawful h
  connection : Connection.replay h = c

theorem Tracked.concat {h : List Entry} {c : Connection} {x : Entry} (ht : Tracked h c)
    (allowed : Allowed h x) : Tracked (h ++ [x]) (c.after x) where
  lawful := lawful_concat.2 ⟨ht.lawful, allowed⟩
  connection := by
    rw [Connection.replay_append, ht.connection]
    rfl

/-- What a transport and the history that led to it have in common. -/
structure Recorded (h : List Entry) (t : Transport) : Prop where
  tracked : Tracked h t.connection
  dialed : ∀ p, t.connection = .connecting p false → Dialed h
  discovered : ∀ p r, t.connection = .connected p r false → Discovered h
  notified : t.connection.isReady = true → t.connection.isWanted = true ∧ Notified h
  unanswered : t.connection.isWanted = true → Unanswered h →
    t.connection.isConnected = true ∧ t.outbound.queue.inFlight = true

/-- A link that has just come up, in the history until its services are asked for. -/
structure Opening (h : List Entry) (p : Address) : Prop where
  tracked : Tracked h (.connected p false false)
  dialed : Dialed h
  answered : ¬ Unanswered h

section

variable {h : List Entry} {x : Entry} {p : Address} {t t' : Transport}

theorem scan_induction {K : List Entry → Prop}
    (hK : ∀ h c ok, c.isScan = true → K h → K (h ++ [.called c ok]))
    {cs : List (Call × Bool)} (hcs : ∀ c ∈ cs, c.1.isScan = true) (hr : K h) :
    K (h ++ cs.map fun c => .called c.1 c.2) := by
  induction cs generalizing h with
  | nil => simpa using hr
  | cons c cs ih =>
    have hone : K (h ++ [.called c.1 c.2]) := hK h c.1 c.2 (hcs c (by simp)) hr
    simpa using ih (fun d hd => hcs d (List.mem_cons_of_mem _ hd)) hone

theorem Opening.scan {c : Call} {ok : Bool} (hc : c.isScan = true) (ho : Opening h p) :
    Opening (h ++ [.called c ok]) p := by
  have hun (hx : ∀ k fragment, (Entry.called c ok) ≠ .called (.write k fragment) true) :
      ¬ Unanswered (h ++ [.called c ok]) := by
    rw [Unanswered, since_concat]
    rintro (⟨k, fragment, heq⟩ | ⟨hun, -⟩)
    · exact hx k fragment heq
    · exact ho.answered hun
  cases c with
  | scan d => exact ⟨ho.tracked.concat trivial, ho.dialed.later rfl, hun (by simp)⟩
  | stopScan => exact ⟨ho.tracked.concat trivial, ho.dialed.later rfl, hun (by simp)⟩
  | _ => cases hc

namespace Recorded

theorem of_same (hr : Recorded h t) (connection : t'.connection = t.connection)
    (flight : t'.outbound.queue.inFlight = t.outbound.queue.inFlight) : Recorded h t' where
  tracked := connection ▸ hr.tracked
  dialed := by rw [connection]; exact hr.dialed
  discovered := by rw [connection]; exact hr.discovered
  notified := by rw [connection]; exact hr.notified
  unanswered := by rw [connection, flight]; exact hr.unanswered

/-- Of a link that is not wanted the history has nothing to tell. -/
theorem of_unwanted (ht : Tracked h t.connection) (hw : t.connection.isWanted = false)
    (hr : t.connection.isReady = false) : Recorded h t where
  tracked := ht
  dialed p hp := by simp [hp, Connection.isWanted] at hw
  discovered p r hp := by simp [hp, Connection.isWanted] at hw
  notified hready := by simp [hr] at hready
  unanswered hwanted := by simp [hw] at hwanted

theorem of_down (ht : Tracked h .disconnected) (hc : t.connection = .disconnected) :
    Recorded h t := .of_unwanted (hc ▸ ht) (by rw [hc]; rfl) (by rw [hc]; rfl)

/-- Only a link that is wanted is ready. -/
theorem unready (hr : Recorded h t) (hw : t.connection.isWanted = false) :
    t.connection.isReady = false := by
  refine eq_false_of_ne_true fun hready => ?_
  simpa [hw] using (hr.notified hready).1

theorem of_teardown {c : Connection} {ok : Bool} (ht : Tracked h c)
    (hc : c.requestTeardown? = some t.connection) :
    Recorded (h ++ [.called .disconnect ok]) t := by
  have hafter : c.after (.called .disconnect ok) = t.connection := by
    rw [Connection.after, hc]
    rfl
  obtain ⟨hwanted, hready⟩ := Connection.unwanted_of_requestTeardown hc
  exact .of_unwanted (hafter ▸ ht.concat trivial) hwanted hready

/-- What happens beside the link changes nothing. -/
theorem later (hr : Recorded h t) (allowed : Allowed h x)
    (connection : t.connection.after x = t.connection) (hx : x.breaksOff = false)
    (hwrite : ∀ k fragment, x ≠ .called (.write k fragment) true) : Recorded (h ++ [x]) t where
  tracked := by simpa [connection] using hr.tracked.concat allowed
  dialed p hp := (hr.dialed p hp).later hx
  discovered p r hp := (hr.discovered p r hp).later hx
  notified hready := ⟨(hr.notified hready).1, (hr.notified hready).2.later hx⟩
  unanswered hwanted hun := by
    rcases (since_concat h x).1 hun with ⟨k, fragment, rfl⟩ | ⟨hun, -⟩
    · exact absurd rfl (hwrite k fragment)
    · exact hr.unanswered hwanted hun

theorem scan {c : Call} {ok : Bool} (hc : c.isScan = true) (hr : Recorded h t) :
    Recorded (h ++ [.called c ok]) t := by
  cases c with
  | scan d => exact hr.later trivial rfl rfl (by simp)
  | stopScan => exact hr.later trivial rfl rfl (by simp)
  | _ => cases hc

theorem attempted {a : Address} (hr : Recorded h t) (hw : t.connection = .disconnected)
    (hc : t'.connection = .connecting a false) :
    Recorded (h ++ [.called (.connect a) true]) t' where
  tracked := by
    rw [hc]
    have ht := hr.tracked
    rw [hw] at ht
    exact ht.concat ht.connection
  dialed p _ := Since.of_last ⟨a, rfl⟩
  discovered p r hp := by simp [hc] at hp
  notified hready := by simp [hc, Connection.isReady] at hready
  unanswered _ hun := by
    rw [Unanswered, since_concat] at hun
    simp [settles] at hun

theorem sends {k : Characteristic} {fragment : List UInt8} {ok : Bool} (hr : Recorded h t)
    (ready : t.connection.isReady = true) (idle : t.outbound.queue.inFlight = false)
    (connection : t'.connection = t.connection)
    (flight : ok = true → t'.outbound.queue.inFlight = true) :
    Recorded (h ++ [.called (.write k fragment) ok]) t' := by
  obtain ⟨hwanted, hnotified⟩ := hr.notified ready
  have hanswered : ¬ Unanswered h := fun hun => by
    simpa [idle] using (hr.unanswered hwanted hun).2
  exact
    { tracked := connection ▸ hr.tracked.concat ⟨hnotified, fun _ => hanswered⟩
      dialed := fun p hp => (hr.dialed p (connection ▸ hp)).later rfl
      discovered := fun p r hp => (hr.discovered p r (connection ▸ hp)).later rfl
      notified := fun _ => ⟨connection ▸ hwanted, hnotified.later rfl⟩
      unanswered := fun _ hun => by
        rcases (since_concat h _).1 hun with ⟨k', f', heq⟩ | ⟨hun, -⟩
        · cases heq
          exact ⟨connection ▸ Endpoint.connected_of_isReady ready, flight rfl⟩
        · exact absurd hun hanswered }

theorem settled {success : Bool} (hr : Recorded h t) (connection : t'.connection = t.connection) :
    Recorded (h ++ [.handled (.writeComplete success)]) t' where
  tracked := connection ▸ hr.tracked.concat trivial
  dialed p hp := (hr.dialed p (connection ▸ hp)).later rfl
  discovered p r hp := (hr.discovered p r (connection ▸ hp)).later rfl
  notified hready := by
    obtain ⟨hwanted, hnotified⟩ := hr.notified (connection ▸ hready)
    exact ⟨connection ▸ hwanted, hnotified.later rfl⟩
  unanswered _ hun := by
    rw [Unanswered, since_concat] at hun
    simp [settles] at hun

theorem readied {k : Characteristic} {r : Bool} (hr : Recorded h t)
    (hc : t.connection = .connected p r false) (hc' : t'.connection = t.connection.markReady)
    (flight : t'.outbound.queue.inFlight = t.outbound.queue.inFlight) :
    Recorded (h ++ [.called (.enableNotify k) true]) t' where
  tracked := hc' ▸ hr.tracked.concat trivial
  dialed q hq := by simp [hc', hc, Connection.markReady] at hq
  discovered q r' _ := (hr.discovered p r hc).later rfl
  notified _ := by
    refine ⟨by rw [hc', hc]; rfl, Since.of_last ⟨hr.discovered p r hc, k, rfl⟩⟩
  unanswered _ hun := by
    rcases (since_concat h _).1 hun with ⟨k', f', heq⟩ | ⟨hun, -⟩
    · cases heq
    · obtain ⟨-, hflight⟩ := hr.unanswered (by rw [hc]; rfl) hun
      exact ⟨by rw [hc', hc]; rfl, flight.trans hflight⟩

theorem opening (hr : Recorded h t) (hc : t.connection = .connecting p false) :
    Opening (h ++ [.handled .linkUp]) p where
  tracked := by
    have ht := hr.tracked
    rw [hc] at ht
    exact ht.concat trivial
  dialed := (hr.dialed p hc).later rfl
  answered hun := by
    rcases (since_concat h _).1 hun with ⟨k', f', heq⟩ | ⟨hun, -⟩
    · cases heq
    · obtain ⟨hconnected, -⟩ := hr.unanswered (by rw [hc]; rfl) hun
      simp [hc, Connection.isConnected] at hconnected

end Recorded

theorem Opening.discovers (ho : Opening h p) (hc : t.connection = .connected p false false) :
    Recorded (h ++ [.called .discover true]) t where
  tracked := hc ▸ ho.tracked.concat trivial
  dialed q hq := by simp [hc] at hq
  discovered q r _ := Since.of_last ⟨ho.dialed, rfl⟩
  notified hready := by simp [hc, Connection.isReady] at hready
  unanswered _ hun := by
    rcases (since_concat h _).1 hun with ⟨k', f', heq⟩ | ⟨hun, -⟩
    · cases heq
    · exact absurd hun ho.answered

end

namespace Endpoint

variable {ρ σ : Type}

/-! ## The operations -/

def entries (e? : Option Event) (cs : List (Call × Bool)) : List Entry :=
  (e?.map .handled).toList ++ cs.map fun c => .called c.1 c.2

/-- An operation that handles the event, if there is one, and adds its entries to the history. -/
def Moves (e? : Option Event) (w w' : Endpoint (Logged ρ) σ) : Prop :=
  ∃ cs, w'.radio.log = w.radio.log ++ cs ∧
    ∀ h, Recorded h w.transport → Recorded (h ++ entries e? cs) w'.transport

variable {e : Event} {w u w' : Endpoint (Logged ρ) σ}

theorem Moves.trans (h₁ : Moves none w u) (h₂ : Moves none u w') : Moves none w w' := by
  obtain ⟨cs, hlog, hcs⟩ := h₁
  obtain ⟨ds, hlog', hds⟩ := h₂
  refine ⟨cs ++ ds, by rw [hlog', hlog, List.append_assoc], fun h hr => ?_⟩
  simpa [entries] using hds _ (hcs h hr)

theorem Moves.handling (u : Endpoint (Logged ρ) σ) (hlog : u.radio.log = w.radio.log)
    (hstep : ∀ h, Recorded h w.transport → Recorded (h ++ [.handled e]) u.transport)
    (hmoves : Moves none u w') : Moves (some e) w w' := by
  obtain ⟨cs, hcalls, hcs⟩ := hmoves
  refine ⟨cs, by rw [hcalls, hlog], fun h hr => ?_⟩
  simpa [entries] using hcs _ (hstep h hr)

theorem Moves.of_same (hlog : w'.radio.log = w.radio.log)
    (hconnection : w'.transport.connection = w.transport.connection)
    (hflight : w'.transport.outbound.queue.inFlight = w.transport.outbound.queue.inFlight) :
    Moves none w w' :=
  ⟨[], by simp [hlog], fun h hr => by simpa [entries] using hr.of_same hconnection hflight⟩

theorem Moves.refl (w : Endpoint (Logged ρ) σ) : Moves none w w := .of_same rfl rfl rfl

theorem Moves.of_event (hlog : w'.radio.log = w.radio.log)
    (hstep : ∀ h, Recorded h w.transport → Recorded (h ++ [.handled e]) w'.transport) :
    Moves (some e) w w' := .handling w' hlog hstep (.refl w')

variable [Radio ρ]

theorem Moves.of_call {c : Call} (hair : w'.air = (w.submit c).2.air)
    (hstep : ∀ h, Recorded h w.transport →
      Recorded (h ++ [.called c (w.submit c).1]) w'.transport) : Moves none w w' :=
  ⟨_, log_of_air hair, hstep⟩

theorem Aside.moves (h : Aside w w') : Moves none w w' := by
  obtain ⟨cs, hlog, hcs⟩ := h.asks.log
  refine ⟨cs, hlog, fun es hr => ?_⟩
  have hsame : Recorded es w'.transport :=
    hr.of_same h.link.connection (by rw [h.link.outbound])
  exact scan_induction (K := fun h => Recorded h w'.transport) (fun _ _ _ hc hk => hk.scan hc)
    hcs hsame

/-- An event that is no report on the link and on no fragment. -/
theorem Aside.moves_handling (h : Aside w w') (hc : ∀ c : Connection, c.after (.handled e) = c) :
    Moves (some e) w w' :=
  .handling w rfl (fun _ hr => hr.later trivial (hc _) rfl (by simp)) h.moves

theorem Drained.moves {sent : Bool} (h : Drained w sent w') : Moves none w w' := by
  cases h with
  | idle => exact .refl w
  | sent fragment queue ready next taken air now course outbound =>
    obtain ⟨hidle, -, -, rfl⟩ := FragmentQueue.next?_eq_some next
    exact .of_call air fun _ hr =>
      hr.sends ready hidle course.connection fun _ => by rw [outbound]; rfl
  | refused fragment queue ready next refused air now course outbound =>
    obtain ⟨hidle, -⟩ := FragmentQueue.next?_eq_some next
    exact .of_call air fun _ hr =>
      hr.sends ready hidle course.connection fun htaken => by simp [refused] at htaken

theorem Ended.moves (h : Ended w w') : Moves .none w w' := by
  cases h with
  | none hc => exact .of_same rfl rfl rfl
  | asked c hc air now setup connected =>
    exact .of_call air fun _ hr => .of_teardown hr.tracked (hc.trans (congrArg some connected.symm))

theorem Dropped.moves {p : Address} {r teardown : Bool} (h : Dropped p w w')
    (hc : w.transport.connection = .connected p r teardown) : Moves none w w' := by
  refine .of_call h.air fun _ hr => .of_teardown hr.tracked ?_
  rw [hc, h.connection]
  rfl

theorem Answered.moves {bytes : List UInt8} {ok : Bool} (h : Answered bytes w ok w') :
    Moves none w w' := by
  cases h with
  | unlinked h => exact .of_same rfl rfl rfl
  | reports h failed => exact .of_same rfl rfl rfl
  | overflows h failed full => exact .of_same rfl rfl rfl
  | @accepted queue h failed fits queued =>
    have hqueued : Moves none w (w.withQueue queue) := .of_same rfl rfl (by subst queued; rfl)
    exact hqueued.trans (drained_drain _).moves

theorem moves_tryCandidates (cs : List Candidate) (hw : w.transport.connection = .disconnected) :
    Moves none w (tryCandidates cs w) := by
  induction cs generalizing w with
  | nil => exact .of_same rfl rfl rfl
  | cons c rest ih =>
    rw [tryCandidates_cons hw]
    split
    · rename_i htaken
      refine .of_call (c := .connect c.address) rfl fun h hr => ?_
      rw [show (w.submit (.connect c.address)).1 = true from htaken]
      exact hr.attempted hw rfl
    · rename_i hrefused
      have hturned : Moves none w (w.turnedAway c rest) := by
        refine .of_call (c := .connect c.address) rfl fun h hr => ?_
        rw [show (w.submit (.connect c.address)).1 = false from eq_false_of_ne_true hrefused]
        have ht := hr.tracked
        rw [hw] at ht
        exact .of_down (ht.concat ht.connection) hw
      exact hturned.trans (ih hw)

theorem Seek.moves [DeviceStore σ] {target : Option Address} (h : Seek target w w') :
    Moves none w w' := by
  cases h with
  | idle ha => exact ha.moves
  | tries cs hw hu hcs =>
    have hqueueing : Moves none w (w.queueing []) := .of_same rfl rfl rfl
    exact (hqueueing.trans hu.moves).trans
      (moves_tryCandidates cs (hu.link.connection.trans hw))

theorem Opened.opening {p : Address} (hc : w.transport.connection = .connecting p false)
    (ho : Opened p w u) :
    ∃ cs, u.radio.log = w.radio.log ++ cs ∧
      ∀ h, Recorded h w.transport → Opening (h ++ entries (some .linkUp) cs) p := by
  obtain ⟨cs, hlog, hcs⟩ := ho.asks.log
  refine ⟨cs, hlog, fun h hr => ?_⟩
  have hopening := scan_induction (K := fun h => Opening h p) (fun _ _ _ hc ho => ho.scan hc) hcs
    (hr.opening hc)
  simpa [entries] using hopening

theorem moves_linkUp [DeviceStore σ] (w : Endpoint (Logged ρ) σ) :
    Moves (some .linkUp) w w.onLinkUp := by
  have hup := linkUpDone_onLinkUp w
  generalize w.onLinkUp = w' at hup ⊢
  cases hup with
  | unexpected h =>
    refine .of_event rfl fun es hr => hr.later trivial ?_ rfl (by simp)
    cases hc : w.transport.connection with
    | disconnected => rfl
    | connecting p t => simp [hc, Connection.isConnecting] at h
    | connected p r t => rfl
  | cancelled p hc traffic connection candidates air =>
    let down := w.update fun t => { t with connection := .disconnected }
    refine .handling down rfl (fun h hr => ?_) (.of_call air fun h hr => ?_)
    · have ht := hr.tracked
      rw [hc] at ht
      exact .of_down (ht.concat trivial) rfl
    · exact .of_down (hr.tracked.concat trivial) connection
  | @kept u p hc opened taken =>
    obtain ⟨cs, hlog, hopening⟩ := opened.opening hc
    have hcall : (u.submit .discover).2.radio.log = u.radio.log ++ [(.discover, true)] := by
      rw [← taken]
      rfl
    refine ⟨cs ++ [(.discover, true)], by rw [hcall, hlog, List.append_assoc], fun h hr => ?_⟩
    have hdiscovers : Recorded _ (u.submit .discover).2.transport :=
      (hopening h hr).discovers opened.connection
    simpa [entries] using hdiscovers
  | @dropped u _ p hc opened refused dropped =>
    obtain ⟨cs, hlog, hopening⟩ := opened.opening hc
    have hcall : (u.submit .discover).2.radio.log = u.radio.log ++ [(.discover, false)] := by
      rw [← refused]
      rfl
    have hdrop := log_of_air dropped.air
    generalize ((u.submit .discover).2.submit .disconnect).1 = ok at hdrop
    rw [hcall, hlog] at hdrop
    refine ⟨cs ++ [(.discover, false), (.disconnect, ok)], by simpa using hdrop, fun h hr => ?_⟩
    have hasked := (hopening h hr).tracked.concat (x := .called .discover false) trivial
    have hdropped : Recorded (_ ++ [.called .disconnect ok]) w'.transport :=
      .of_teardown hasked (by rw [dropped.connection]; rfl)
    simpa [entries] using hdropped

theorem moves_linkDown [DeviceStore σ] (w : Endpoint (Logged ρ) σ) :
    Moves (some .linkDown) w w.onLinkDown := by
  have hdown := linkDownDone_onLinkDown w
  generalize w.onLinkDown = w' at hdown ⊢
  have step {h : List Entry} {t : Transport} (hr : Recorded h w.transport)
      (ht : t.connection = .disconnected) : Recorded (h ++ [.handled .linkDown]) t := by
    refine .of_down ?_ ht
    have hafter : w.transport.connection.after (.handled .linkDown) = .disconnected := by
      cases w.transport.connection <;> first | rfl | (rename_i t; cases t <;> rfl)
    rw [← hafter]
    exact hr.tracked.concat trivial
  cases hdown with
  | ignored hc => exact .of_event rfl fun _ hr => step hr hc
  | failed p hc =>
    exact .handling (w.gone.update (Transport.noteError (.connectFailed p))) rfl
      (fun _ hr => step hr rfl) (moves_tryCandidates _ rfl)
  | cancelled p hc => exact .of_event rfl fun _ hr => step hr rfl
  | lost p r hc => exact .of_event rfl fun _ hr => step hr rfl
  | closed p r hc => exact .of_event rfl fun _ hr => step hr rfl

theorem moves_discovered (success : Bool) (w : Endpoint (Logged ρ) σ) :
    Moves (some (.servicesDiscovered success)) w (w.onServicesDiscovered success) := by
  have h := discoveredDone_onServicesDiscovered success w
  generalize w.onServicesDiscovered success = w' at h ⊢
  refine .handling w rfl (fun _ hr => hr.later trivial rfl rfl (by simp)) ?_
  cases h with
  | ignored => exact .refl w
  | ready p r hc taken =>
    have hready : Moves none w (w.submit (.enableNotify .notify)).2.readied := by
      refine .of_call rfl fun h hr => ?_
      rw [taken]
      exact hr.readied hc rfl rfl
    exact hready.trans (drained_drain _).moves
  | refused p r hc refused dropped =>
    have hasked : Moves none w (w.submit (.enableNotify .notify)).2 := by
      refine .of_call rfl fun h hr => ?_
      rw [refused]
      exact hr.later trivial rfl rfl (by simp)
    exact hasked.trans (dropped.moves hc)
  | failed p r hc dropped => exact dropped.moves hc

theorem moves_completed (success : Bool) (w : Endpoint (Logged ρ) σ) :
    Moves (some (.writeComplete success)) w (w.onWriteComplete success) := by
  have h := completedDone_onWriteComplete success w
  generalize w.onWriteComplete success = w' at h ⊢
  cases h with
  | unexpected => exact .of_event rfl fun _ hr => hr.settled rfl
  | acknowledged hflight hs =>
    exact .handling w.acknowledged rfl (fun _ hr => hr.settled rfl) (drained_drain _).moves
  | failed hflight hs air now course outbound =>
    have hlog : w'.radio.log = w.radio.log := congrArg (fun x => Logged.log x.1) air
    exact .of_event hlog fun _ hr => hr.settled course.connection

variable [DeviceStore σ]

theorem moves_act {a : Action} (ha : a.byConsumer = true) (w : Endpoint (Logged ρ) σ) :
    Moves none w (w.act a) := by
  have h := acted_act ha w
  generalize w.act a = w' at h ⊢
  cases h with
  | stops hu h =>
    have hhalted : Moves none w w.halted := .of_same rfl rfl rfl
    exact (hhalted.trans hu.moves).trans h.moves
  | seeks running h => exact h.moves
  | ends h => exact h.moves
  | aside h => exact h.moves
  | writes h => exact h.moves
  | drains h => exact h.moves
  | _ => exact .of_same rfl rfl rfl

theorem moves_handle (e : Event) (w : Endpoint (Logged ρ) σ) : Moves (some e) w (w.handle e) := by
  cases e with
  | scanResult d => exact (aside_onScanResult d w).moves_handling fun _ => rfl
  | scanComplete => exact (aside_onScanComplete w).moves_handling fun _ => rfl
  | linkUp => exact moves_linkUp w
  | linkDown => exact moves_linkDown w
  | servicesDiscovered success => exact moves_discovered success w
  | writeComplete success => exact moves_completed success w
  | received bytes =>
    obtain ⟨inbound, heq⟩ := onReceived_eq bytes w
    rw [Endpoint.handle, heq]
    exact .handling w rfl (fun _ hr => hr.later trivial rfl rfl (by simp)) (.of_same rfl rfl rfl)

end Endpoint

/-! ## Turns and runs -/

namespace Turn

open Endpoint

variable {ρ σ : Type} [Radio ρ] [DeviceStore σ]

/-- What a turn adds to the history. -/
def entries (t : Turn ρ σ) : List Entry := Endpoint.entries t.event? t.calls

theorem moves (t : Turn ρ σ) : Moves t.event? t.before t.after := by
  cases t.kind with
  | still idle event transport log =>
    rw [event]
    exact .of_same log (by rw [transport]) (by rw [transport])
  | acts a ha hstep =>
    rw [after_of_step hstep, event?_of_consumer ha hstep]
    exact moves_act ha t.before
  | handles e w idle event transport radio after =>
    obtain ⟨cs, hlog, hcs⟩ := moves_handle e w
    rw [event, after]
    exact ⟨cs, by rw [hlog, radio], fun h hr => hcs h (transport ▸ hr)⟩

theorem log_after (t : Turn ρ σ) : t.after.radio.log = t.before.radio.log ++ t.calls := by
  obtain ⟨cs, hlog, -⟩ := t.moves
  rw [calls_of_log hlog, hlog]

theorem recorded (t : Turn ρ σ) {h : List Entry} (hr : Recorded h t.before.transport) :
    Recorded (h ++ t.entries) t.after.transport := by
  obtain ⟨cs, hlog, hcs⟩ := t.moves
  rw [entries, calls_of_log hlog]
  exact hcs h hr

end Turn

namespace Endpoint

variable {ρ σ : Type} [Radio ρ] [DeviceStore σ] {w : Endpoint (Logged ρ) σ}

def history (steps : List (Step ρ σ)) (w : Endpoint (Logged ρ) σ) : List Entry :=
  (turns steps w).flatMap Turn.entries

theorem history_concat (steps : List (Step ρ σ)) (st : Step ρ σ) (w : Endpoint (Logged ρ) σ) :
    history (steps ++ [st]) w = history steps w ++ Turn.entries ⟨w.runLogged steps, st⟩ := by
  simp [history, turns_concat]

theorem log_run (steps : List (Step ρ σ)) (w : Endpoint (Logged ρ) σ) :
    (w.runLogged steps).radio.log = w.radio.log ++ (history steps w).filterMap Entry.call? := by
  induction steps using List.reverseRecOn with
  | nil => exact (List.append_nil _).symm
  | append_singleton steps st ih =>
    let t : Turn ρ σ := ⟨w.runLogged steps, st⟩
    have hcalls : t.entries.filterMap Entry.call? = t.calls := by
      have hevent : (t.event?.map Entry.handled).toList.filterMap Entry.call? = [] := by
        cases t.event? <;> rfl
      rw [Turn.entries, entries, List.filterMap_append, hevent, List.filterMap_map]
      simp [Function.comp_def, Entry.call?]
    rw [history_concat, List.filterMap_append, hcalls, ← List.append_assoc, ← ih, runLogged_concat]
    exact t.log_after

theorem recorded_create {s : LinkSettings} {target : Option String} {radio : Logged ρ} {store : σ}
    (hw : create s target radio store = .ok w) : Recorded [] w.transport := by
  obtain ⟨a, devices, -, rfl⟩ := create_eq hw
  exact .of_down ⟨lawful_nil, rfl⟩ rfl

theorem recorded_run (h : Recorded [] w.transport) (steps : List (Step ρ σ)) :
    Recorded (history steps w) (w.runLogged steps).transport := by
  induction steps using List.reverseRecOn with
  | nil => exact h
  | append_singleton steps st ih =>
    rw [history_concat, runLogged_concat]
    exact Turn.recorded ⟨w.runLogged steps, st⟩ ih

end Endpoint

end VehicleLink
