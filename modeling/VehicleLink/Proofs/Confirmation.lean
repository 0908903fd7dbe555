import VehicleLink.Proofs.History
import VehicleLink.Radio.Simulated

/-!
# Confirmation

What a transport says of its connection is what the radio confirmed. A connection moves in one of
five ways (`Connection.Moved`): an attempt begins that the radio took up, a link comes up, a link
that is not wanted is given back, a link or an attempt ends, or a failed attempt gives way to the
next one. All but the first are due to a report of the radio on the link.

The last of them is two moves in one turn, so the history is looked at as well, entry by entry. The
peer is at every entry the address of the attempt that was taken up last
(`Entry.lastTaken_of_peer`).
-/

namespace VehicleLink

/-- What a connection may be moved by. -/
structure Cause where
  /-- The radio reports the link up. -/
  up : Prop
  /-- The radio reports the link down. -/
  down : Prop
  /-- A connection is looked for. -/
  seeks : Prop
  /-- The radio takes up an attempt at the address. -/
  takes : Address → Prop

namespace Connection

/-! ## Moves -/

/-- How a connection moves, if at all. -/
inductive Moved (k : Cause) : Connection → Connection → Prop
  | stays {c c' : Connection} (same : SamePhase c c') (up : k.up → c.isConnecting = false)
      (down : k.down → c = .disconnected) : Moved k c c'
  | begins (a : Address) (seeks : k.seeks) (takes : k.takes a) :
      Moved k .disconnected (.connecting a false)
  | comesUp (p : Address) (teardown : Bool) (up : k.up) :
      Moved k (.connecting p false) (.connected p false teardown)
  | givenBack (p : Address) (up : k.up) : Moved k (.connecting p true) .disconnected
  | ends {c : Connection} (busy : c ≠ .disconnected) (down : k.down) : Moved k c .disconnected
  /-- An attempt failed, and the next one was taken up. -/
  | fallsBack (p a : Address) (down : k.down) (takes : k.takes a) :
      Moved k (.connecting p false) (.connecting a false)

/-- A connection moves only as the radio confirms, with `last` the address of the attempt that the
radio took up last. -/
structure Confirmed (k : Cause) (last : Option Address) (c c' : Connection) : Prop where
  /-- A link comes up where an attempt is under way that is wanted, with the peer of this attempt. -/
  up : c.isConnected = false → c'.isConnected = true →
    k.up ∧ ∃ p, c = .connecting p false ∧ c'.peer? = some p ∧ last = some p
  down : c.isConnected = true → (c'.isConnected = false ↔ k.down)
  gone : c.isConnected = true → k.down → c' = .disconnected
  begins : c.isConnecting = false → c'.isConnecting = true →
    c = .disconnected ∧ k.seeks ∧ ∃ a, k.takes a ∧ c' = .connecting a false
  ends : c.isConnecting = true → ¬ SamePhase c c' → k.up ∨ k.down
  /-- An attempt gives way to another one only when it failed. -/
  again : c.isConnecting = true → c'.isConnecting = true → ¬ SamePhase c c' →
    k.down ∧ ∃ a, k.takes a ∧ c' = .connecting a false
  still : ¬ k.up → ¬ k.down → ¬ (c = .disconnected ∧ k.seeks) → SamePhase c c'

variable {k : Cause} {last : Option Address} {c c' : Connection}

theorem Moved.confirmed (h : Moved k c c') (hpeer : ∀ p, c.peer? = some p → last = some p) :
    Confirmed k last c c' := by
  cases h with
  | stays same up down =>
    refine ⟨?_, ?_, ?_, ?_, fun _ hne => absurd same hne, fun _ _ hne => absurd same hne,
      fun _ _ _ => same⟩
    · intro hdown hup
      rw [same.isConnected, hdown] at hup
      cases hup
    · intro hup
      rw [same.isConnected, hup]
      refine ⟨nofun, fun hdown => ?_⟩
      rw [down hdown] at hup
      cases hup
    · intro hup hdown
      rw [down hdown] at hup
      cases hup
    · intro hidle hbusy
      rw [same.isConnecting, hidle] at hbusy
      cases hbusy
  | begins a seeks takes =>
    exact ⟨nofun, nofun, nofun, fun _ _ => ⟨rfl, seeks, a, takes, rfl⟩, nofun, nofun,
      fun _ _ hno => absurd ⟨rfl, seeks⟩ hno⟩
  | comesUp p teardown up =>
    exact ⟨fun _ _ => ⟨up, p, rfl, rfl, hpeer p rfl⟩, nofun, nofun, nofun, fun _ _ => .inl up,
      nofun, fun hno => absurd up hno⟩
  | givenBack p up =>
    exact ⟨nofun, nofun, nofun, nofun, fun _ _ => .inl up, nofun, fun hno => absurd up hno⟩
  | ends busy down =>
    exact ⟨nofun, fun _ => ⟨fun _ => down, fun _ => rfl⟩, fun _ _ => rfl, nofun,
      fun _ _ => .inr down, nofun, fun _ hno => absurd down hno⟩
  | fallsBack p a down takes =>
    exact ⟨nofun, nofun, nofun, nofun, fun _ _ => .inr down,
      fun _ _ _ => ⟨down, a, takes, rfl⟩, fun _ hno => absurd down hno⟩

end Connection

/-! ## Histories -/

namespace Entry

open Connection

/-- The address of an attempt that the radio took up. -/
def taken? : Entry → Option Address
  | .called (.connect a) true => some a
  | _ => none

/-- The address of the attempt that the radio took up last. -/
def lastTaken (h : List Entry) : Option Address := (h.filterMap taken?).getLast?

theorem lastTaken_concat (h : List Entry) (x : Entry) :
    lastTaken (h ++ [x]) = x.taken?.or (lastTaken h) := by
  rw [lastTaken, List.filterMap_append, List.getLast?_append]
  cases hx : x.taken? <;> simp [hx, lastTaken]

theorem Lawful.of_append {h later : List Entry} (hl : Lawful (h ++ later)) : Lawful h := by
  rintro before x after rfl
  exact hl before x (after ++ later) (by simp)

def cause (x : Entry) : Cause where
  up := x = .handled .linkUp
  down := x = .handled .linkDown
  seeks := ∃ a, x = .called (.connect a) true
  takes a := x = .called (.connect a) true

variable {c : Connection} {h : List Entry} {x : Entry} {p : Address}

theorem moved_linkUp (c : Connection) :
    Moved (cause (.handled .linkUp)) c (c.after (.handled .linkUp)) := by
  cases c with
  | connecting p teardown =>
    cases teardown with
    | true => exact .givenBack p rfl
    | false => exact .comesUp p false rfl
  | _ => exact .stays (.of_eq rfl) (fun _ => rfl) nofun

theorem moved_linkDown (c : Connection) :
    Moved (cause (.handled .linkDown)) c (c.after (.handled .linkDown)) := by
  cases c with
  | disconnected => exact .stays (.of_eq rfl) nofun fun _ => rfl
  | connecting p teardown => cases teardown <;> exact .ends nofun rfl
  | connected p ready teardown => cases teardown <;> exact .ends nofun rfl

theorem moved_called (k : Call) (accepted : Bool)
    (hconnect : k.isConnect = true → c = .disconnected) :
    Moved (cause (.called k accepted)) c (c.after (.called k accepted)) := by
  cases k with
  | connect a =>
    obtain rfl : c = .disconnected := hconnect rfl
    cases accepted with
    | true => exact .begins a ⟨a, rfl⟩ rfl
    | false => exact .stays (.of_eq rfl) nofun nofun
  | disconnect =>
    refine .stays ?_ nofun nofun
    cases c <;> exact ⟨rfl, rfl⟩
  | enableNotify k =>
    refine .stays ?_ nofun nofun
    cases accepted with
    | true => exact samePhase_markReady c
    | false => exact .of_eq rfl
  | _ => exact .stays (.of_eq rfl) nofun nofun

theorem moved_replay (allowed : Allowed h x) : Moved x.cause (replay h) (replay (h ++ [x])) := by
  rw [replay_append]
  cases x with
  | called k accepted =>
    refine moved_called k accepted fun hk => ?_
    cases k with
    | connect a => exact allowed
    | _ => cases hk
  | handled e =>
    cases e with
    | linkUp => exact moved_linkUp _
    | linkDown => exact moved_linkDown _
    | _ => exact .stays (.of_eq rfl) nofun nofun

/-- The peer of an attempt or a link is the address of the attempt that was taken up last. -/
theorem lastTaken_of_peer (hl : Lawful h) (hp : (replay h).peer? = some p) :
    lastTaken h = some p := by
  induction h using List.reverseRecOn with
  | nil => cases hp
  | append_singleton h x ih =>
    obtain ⟨hbefore, hallowed⟩ := lawful_concat.1 hl
    have hmove := moved_replay hallowed
    have hkeeps (htaken : x.taken? = none) (hpeer : (replay h).peer? = some p) :
        x.taken?.or (lastTaken h) = some p := by
      rw [htaken]
      exact ih hbefore hpeer
    rw [lastTaken_concat]
    generalize replay (h ++ [x]) = c' at hp hmove
    generalize hc : replay h = c at hmove hkeeps
    cases hmove with
    | begins a seeks takes =>
      obtain rfl : x = .called (.connect a) true := takes
      exact hp
    | comesUp q teardown up =>
      obtain rfl : x = .handled .linkUp := up
      exact hkeeps rfl hp
    | fallsBack q a down takes => cases Eq.trans (Eq.symm down) takes
    | givenBack q up => cases hp
    | ends busy down => cases hp
    | stays same up down =>
      -- an attempt that was taken up would have moved the connection
      refine hkeeps ?_ (same.peer.symm.trans hp)
      unfold taken?
      split
      · obtain rfl : c = .disconnected := hc.symm.trans hallowed
        cases same.peer.symm.trans hp
      · rfl

theorem confirmed_of_lawful (hl : Lawful (h ++ [x])) :
    Confirmed x.cause (lastTaken h) (replay h) (replay (h ++ [x])) := by
  obtain ⟨hbefore, hallowed⟩ := lawful_concat.1 hl
  exact (moved_replay hallowed).confirmed fun p hp => lastTaken_of_peer hbefore hp

end Entry

namespace Endpoint

variable {ρ σ : Type} [Radio ρ]

/-! ## The operations -/

/-- Attempts end with none under way, or with the one that the last call was taken up for. -/
theorem Attempted.settled {cs : List Candidate} {w w' : Endpoint (Logged ρ) σ}
    (h : Attempted cs w w') :
    w'.transport.connection = .disconnected ∨ ∃ a ks,
      w'.transport.connection = .connecting a false ∧
      w'.radio.log = w.radio.log ++ ks ++ [(.connect a, true)] := by
  rcases h.outcome with hnone | ⟨_, c, _, _, _, hconn, u, hu, htaken, hair⟩
  · exact .inl hnone.connection
  · obtain ⟨ks, hlog, -⟩ := hu.log
    refine .inr ⟨c.address, ks, hconn, ?_⟩
    rw [log_of_air hair, hlog, htaken]

theorem Seek.settled {target : Option Address} {w w' : Endpoint (Logged ρ) σ}
    (h : Seek target w w') :
    SamePhase w.transport.connection w'.transport.connection ∨
      w.transport.connection = .disconnected ∧ ∃ a ks,
        w'.transport.connection = .connecting a false ∧
        w'.radio.log = w.radio.log ++ ks ++ [(.connect a, true)] := by
  cases h with
  | idle ha => exact .inl ha.calm.connection
  | @tries u cs hw hu hcs =>
    have hdisc := hu.link.connection.trans hw
    rcases (attempted_tryCandidates cs hdisc).settled with hnone | ⟨a, ks, hconn, hlog⟩
    · exact .inl (.of_eq (hnone.trans hw.symm))
    · obtain ⟨ls, hbefore, -⟩ := hu.asks.log
      refine .inr ⟨hw, a, ls ++ ks, hconn, ?_⟩
      rw [hlog, hbefore, ← List.append_assoc]
      rfl

variable [DeviceStore σ]

/-- No action of a consumer but a connect or a poll moves the connection. -/
theorem samePhase_act {a : Action} (ha : a.byConsumer = true)
    (hconnect : ∀ target, a ≠ .connect target) (hpoll : ∀ instant, a ≠ .pollAt instant)
    (w : Endpoint ρ σ) : SamePhase w.transport.connection (w.act a).transport.connection := by
  cases a with
  | connect target => exact absurd rfl (hconnect target)
  | pollAt instant => exact absurd rfl (hpoll instant)
  | stop => exact (calm_stop w).connection
  | disconnect => exact (ended_disconnect w).calm.connection
  | startScan => exact (aside_beginScan w).calm.connection
  | write bytes => exact (written_write bytes w).calm.connection
  | read n => exact (calm_read n w).connection
  | setTarget target =>
    obtain ⟨policy, heq⟩ := setTarget_eq target w
    exact .of_eq (by rw [act, heq]; rfl)
  | drainDue => exact (drained_drain w).calm.connection
  | start => exact .of_eq rfl
  | wait d => exact .of_eq rfl
  | handle e => cases ha
  | next => cases ha
  | raise e => cases ha

end Endpoint

/-! ## Turns -/

namespace Turn

open Endpoint Connection

variable {ρ σ : Type} [Radio ρ] [DeviceStore σ] {t : Turn ρ σ} {w : Endpoint (Logged ρ) σ}

/-- The step is a connect or a poll. -/
def seeks {ρ σ : Type} (t : Turn ρ σ) : Prop :=
  (∃ target, t.step = .act (.connect target)) ∨ ∃ instant, t.step = .act (.pollAt instant)

/-- The last call of the turn is an attempt that the radio took up. -/
def takes (t : Turn ρ σ) (a : Address) : Prop := t.calls.getLast? = some (.connect a, true)

def cause (t : Turn ρ σ) : Cause where
  up := t.event? = some .linkUp
  down := t.event? = some .linkDown
  seeks := t.seeks
  takes := t.takes

theorem takes_of_log {a : Address} {ks : List (Call × Bool)}
    (h : t.after.radio.log = t.before.radio.log ++ ks ++ [(.connect a, true)]) : t.takes a := by
  have hcalls : t.calls = ks ++ [(.connect a, true)] := calls_of_log (by rw [h, List.append_assoc])
  rw [takes, hcalls]
  simp

theorem moved_linkUp (event : t.event? = some .linkUp) :
    Moved t.cause w.transport.connection w.onLinkUp.transport.connection := by
  have hup := linkUpDone_onLinkUp w
  generalize w.onLinkUp = w' at hup ⊢
  cases hup with
  | unexpected h => exact .stays (.of_eq rfl) (fun _ => h) (by simp [cause, event])
  | cancelled p hc traffic connection =>
    rw [hc, connection]
    exact .givenBack p event
  | @kept u p hc opened taken =>
    change Moved t.cause _ u.transport.connection
    rw [hc, opened.connection]
    exact .comesUp p false event
  | dropped p hc opened refused dropped =>
    rw [hc, dropped.connection]
    exact .comesUp p true event

theorem moved_linkDown (event : t.event? = some .linkDown) (radio : w.radio = t.before.radio)
    (after : t.after = w.onLinkDown) :
    Moved t.cause w.transport.connection t.after.transport.connection := by
  have hdown := linkDownDone_onLinkDown w
  rw [← after] at hdown
  generalize hw' : t.after = w' at hdown ⊢
  cases hdown with
  | ignored h => exact .stays (.of_eq rfl) (by simp [cause, event]) fun _ => h
  | failed p hc =>
    let gone := w.gone.update (Transport.noteError (.connectFailed p))
    have ha := attempted_tryCandidates (w := gone) w.transport.candidates rfl
    rcases ha.settled with hnone | ⟨a, ks, hconn, hlog⟩
    · rw [hc, hnone]
      exact .ends nofun event
    · rw [hc, hconn]
      have hcalls : t.after.radio.log = t.before.radio.log ++ ks ++ [(.connect a, true)] := by
        rw [hw', hlog, ← radio]
        rfl
      exact .fallsBack p a event (takes_of_log hcalls)
  | cancelled p hc => exact .ends (by simp [hc]) event
  | lost p ready hc => exact .ends (by simp [hc]) event
  | closed p ready hc => exact .ends (by simp [hc]) event

theorem moved (t : Turn ρ σ) :
    Moved t.cause t.before.transport.connection t.after.transport.connection := by
  cases t.kind with
  | still idle event transport log =>
    rw [transport]
    exact .stays (.of_eq rfl) (by simp [cause, event]) (by simp [cause, event])
  | handles e w idle event transport radio after =>
    rw [← transport]
    by_cases hup : e = .linkUp
    · subst hup
      rw [after]
      exact moved_linkUp event
    · by_cases hdown : e = .linkDown
      · subst hdown
        exact moved_linkDown event radio after
      · rw [after]
        exact .stays (calm_handle e w hup hdown).connection (by simp [cause, event, hup])
          (by simp [cause, event, hdown])
  | acts a ha hstep =>
    have event := event?_of_consumer ha hstep
    -- a search leaves the connection, or ends with an attempt that the radio took up
    have hseek {target : Option Address} (h : Seek target t.before t.after) (step : t.seeks) :
        Moved t.cause t.before.transport.connection t.after.transport.connection := by
      rcases h.settled with hsame | ⟨hdisc, a, ks, hconn, hlog⟩
      · exact .stays hsame (by simp [cause, event]) (by simp [cause, event])
      · rw [hdisc, hconn]
        exact .begins a step (takes_of_log hlog)
    by_cases hconnect : ∃ target, a = .connect target
    · obtain ⟨target, rfl⟩ := hconnect
      have hsought : Seek target t.before t.after := by
        rw [after_of_step hstep]
        exact seek_connect target t.before
      exact hseek hsought (.inl ⟨target, hstep⟩)
    · by_cases hpoll : ∃ instant, a = .pollAt instant
      · obtain ⟨instant, rfl⟩ := hpoll
        have hsought : Seek none t.before t.after := by
          rw [after_of_step hstep]
          exact seek_pollAt instant t.before
        exact hseek hsought (.inr ⟨instant, hstep⟩)
      · rw [after_of_step hstep]
        refine .stays (samePhase_act ha ?_ ?_ _) (by simp [cause, event]) (by simp [cause, event])
        · exact fun target h => hconnect ⟨target, h⟩
        · exact fun instant h => hpoll ⟨instant, h⟩

end Turn

namespace Endpoint

variable {ρ σ : Type} [Radio ρ] [DeviceStore σ] {s : LinkSettings} {w : Endpoint (Logged ρ) σ}

/-! ## Runs -/

open Connection in
/-- Any turn of any run of a transport that was created moves the connection only as the radio
confirms. So does every entry that the turn adds to the history, of which the connection before the
turn and the one after it are the replay. -/
theorem connection_confirmed {target : Option String} {radio : Logged ρ} {store : σ}
    (hw : create s target radio store = .ok w) (steps : List (Step ρ σ)) (st : Step ρ σ) :
    let h := history steps w
    let t : Turn ρ σ := ⟨w.runLogged steps, st⟩
    Confirmed t.cause (Entry.lastTaken h) t.before.transport.connection
      t.after.transport.connection ∧
    t.before.transport.connection = replay h ∧
    t.after.transport.connection = replay (h ++ t.entries) ∧
    ∀ (before : List Entry) x after, t.entries = before ++ x :: after →
      Confirmed x.cause (Entry.lastTaken (h ++ before)) (replay (h ++ before))
        (replay (h ++ before ++ [x])) := by
  intro h t
  have hbefore : Recorded h t.before.transport := recorded_run (recorded_create hw) steps
  have hafter : Recorded (h ++ t.entries) t.after.transport := t.recorded hbefore
  have hpeer (p : Address) (hp : t.before.transport.connection.peer? = some p) :
      Entry.lastTaken h = some p :=
    Entry.lastTaken_of_peer hbefore.tracked.lawful (hbefore.tracked.connection ▸ hp)
  refine ⟨t.moved.confirmed hpeer, hbefore.tracked.connection.symm,
    hafter.tracked.connection.symm, fun before x after hsplit => ?_⟩
  have hlawful := hafter.tracked.lawful
  rw [hsplit, show h ++ (before ++ x :: after) = h ++ before ++ [x] ++ after by simp] at hlawful
  exact Entry.confirmed_of_lawful hlawful.of_append

/-- The attempt at the first of two remembered devices fails and the second is tried; the link that
comes up then is one to the second. -/
theorem connection_confirmed_of_fallback :
    ∃ (w : Endpoint (Logged Radio.Simulated) Store.Memory)
      (steps : List (Step Radio.Simulated Store.Memory)) (t : Turn Radio.Simulated Store.Memory),
      create {} none ⟨{ behaviour := { autoConnect := false } }, []⟩
        ⟨{ known := (({} : AddressSet).insert ⟨0, 0, 0, 0, 0, 10⟩).insert ⟨0, 0, 0, 0, 0, 11⟩ }⟩ =
          .ok w ∧
      t.before = w.runLogged steps ∧ t.event? = some .linkUp ∧
      Entry.lastTaken (history steps w) = some ⟨0, 0, 0, 0, 0, 11⟩ ∧
      t.before.isUp = false ∧ t.after.isUp = true ∧
      Connection.Confirmed t.cause (Entry.lastTaken (history steps w))
        t.before.transport.connection t.after.transport.connection := by
  let radio : Logged Radio.Simulated := ⟨{ behaviour := { autoConnect := false } }, []⟩
  let store : Store.Memory :=
    ⟨{ known := (({} : AddressSet).insert ⟨0, 0, 0, 0, 0, 10⟩).insert ⟨0, 0, 0, 0, 0, 11⟩ }⟩
  let steps : List (Step Radio.Simulated Store.Memory) :=
    [.act .start, .act (.connect none), .act (.handle .linkDown)]
  have hw : create {} none radio store = .ok _ := rfl
  exact ⟨_, steps, _, hw, rfl, by rfl, by decide, by decide, by decide,
    (connection_confirmed hw steps (.act (.handle .linkUp))).1⟩

end Endpoint

end VehicleLink
