import VehicleLink.Proofs.Calm
import Mathlib.Data.List.Basic

/-!
# Turns

A turn handles an event, acts for a consumer, or leaves the transport and the log as they are
(`Turn.Kind`), so that a property of all turns is shown of `handle` and of what consumers do, which
`Acted` lists. A turn establishes a link exactly if it handles a report of a link that is up while
an attempt is under way that is still wanted (`Turn.establishes_iff`).

What was done and not undone since is said of a list by `Since`, with one law for an element more.
-/

namespace VehicleLink

/-! ## Since -/

section

variable {α : Type} {P : List α → α → Prop} {Q : α → Prop}

/-- In the order of the list, `Q` since `P`: some element has `P`, with all that is before it, and
those behind it have `Q`. -/
def Since (P : List α → α → Prop) (Q : α → Prop) (l : List α) : Prop :=
  ∃ before x after, l = before ++ x :: after ∧ P before x ∧ ∀ y ∈ after, Q y

theorem not_since_nil : ¬ Since P Q [] := by
  rintro ⟨before, x, after, h, -⟩
  simp at h

theorem since_concat (l : List α) (x : α) :
    Since P Q (l ++ [x]) ↔ P l x ∨ Since P Q l ∧ Q x := by
  constructor
  · rintro ⟨before, y, after, h, hy, hafter⟩
    rcases List.eq_nil_or_concat' after with rfl | ⟨after, z, rfl⟩
    · obtain ⟨rfl, hxy⟩ := List.append_inj' h rfl
      cases hxy
      exact .inl hy
    · rw [← List.cons_append, ← List.append_assoc] at h
      obtain ⟨rfl, hxz⟩ := List.append_inj' h rfl
      cases hxz
      exact .inr ⟨⟨before, y, after, rfl, hy, fun v hv => hafter v (by simp [hv])⟩,
        hafter x (by simp)⟩
  · rintro (hx | ⟨⟨before, y, after, rfl, hy, hafter⟩, hx⟩)
    · exact ⟨l, x, [], rfl, hx, by simp⟩
    · refine ⟨before, y, after ++ [x], by simp, hy, ?_⟩
      simpa [or_imp, forall_and] using ⟨hafter, hx⟩

theorem Since.of_last {l : List α} {x : α} (h : P l x) : Since P Q (l ++ [x]) :=
  (since_concat l x).2 (.inl h)

theorem Since.later {l : List α} {x : α} (h : Since P Q l) (hx : Q x) : Since P Q (l ++ [x]) :=
  (since_concat l x).2 (.inr ⟨h, hx⟩)

end

namespace Endpoint

variable {ρ σ : Type}

def isUp (w : Endpoint ρ σ) : Bool := w.transport.connection.isConnected

variable [Radio ρ] {w w' : Endpoint ρ σ}

/-! ## What consumers do -/

section

variable [DeviceStore σ]

/-- What an action of a consumer does. -/
inductive Acted (w : Endpoint ρ σ) : Action → Endpoint ρ σ → Prop
  | starts : Acted w .start w.start
  | stops {u w' : Endpoint ρ σ} (hu : Aside w.halted u) (h : Ended u w') : Acted w .stop w'
  | seeks {a : Action} {target : Option Address} {w' : Endpoint ρ σ}
      (running : w.transport.running = true) (h : Seek target w w') : Acted w a w'
  | ends {w' : Endpoint ρ σ} (h : Ended w w') : Acted w .disconnect w'
  | aside {a : Action} {w' : Endpoint ρ σ} (h : Aside w w') : Acted w a w'
  | writes {bytes : List UInt8} {ok : Bool} {w' : Endpoint ρ σ} (h : Answered bytes w ok w') :
      Acted w (.write bytes) w'
  | reads (n : Nat) (inbound : Inbound) : Acted w (.read n) (w.update fun t => { t with inbound })
  | retargets (target : Option String) (policy : Reconnect.Policy) :
      Acted w (.setTarget target) (w.update fun t => { t with policy })
  | drains {sent : Bool} {w' : Endpoint ρ σ} (h : Drained w sent w') : Acted w .drainDue w'
  | waits (d : Nanos) : Acted w (.wait d) (w.wait d)

theorem acted_act {a : Action} (ha : a.byConsumer = true) (w : Endpoint ρ σ) :
    Acted w a (w.act a) := by
  cases a with
  | start => exact .starts
  | stop =>
    rw [act]
    cases hrun : w.transport.running with
    | true =>
      obtain ⟨u, hu, heq⟩ := stop_of_running hrun
      rw [heq]
      exact .stops hu (ended_disconnect u)
    | false =>
      rw [stop_of_stopped hrun]
      exact .aside (.refl w)
  | connect target =>
    cases hrun : w.transport.running with
    | true => exact .seeks hrun (seek_connect target w)
    | false =>
      rw [act, connect_of_stopped hrun]
      exact .aside (.refl w)
  | disconnect => exact .ends (ended_disconnect w)
  | pollAt instant =>
    cases hrun : w.transport.running with
    | true => exact .seeks hrun (seek_pollAt instant w)
    | false =>
      rw [act, pollAt_of_stopped hrun]
      exact .aside (.refl w)
  | startScan => exact .aside (aside_beginScan w)
  | write bytes => exact .writes (answered_write bytes w)
  | read n =>
    obtain ⟨inbound, heq⟩ := read_eq n w
    rw [act, heq]
    exact .reads n inbound
  | setTarget target =>
    obtain ⟨policy, heq⟩ := setTarget_eq target w
    rw [act, heq]
    exact .retargets target policy
  | drainDue => exact .drains (drained_drain w)
  | wait d => exact .waits d
  | handle e => cases ha
  | next => cases ha
  | raise e => cases ha

end

/-! ## Where the link comes up -/

theorem Calm.isUp (h : Calm w w') : w'.isUp = w.isUp := h.connection.isConnected

theorem Attempted.isUp {cs : List Candidate} (h : Attempted cs w w') : w'.isUp = false := by
  rcases h.outcome with hnone | ⟨_, _, _, _, _, hconn, _⟩
  · simp [Endpoint.isUp, hnone.connection, Connection.isConnected]
  · simp [Endpoint.isUp, hconn, Connection.isConnected]

theorem Seek.isUp {target : Option Address} (h : Seek target w w') :
    w'.isUp = w.isUp := by
  cases h with
  | idle ha => exact ha.calm.isUp
  | tries cs hw hu hcs =>
    have ha := attempted_tryCandidates cs (hu.link.connection.trans hw)
    rw [ha.isUp]
    simp [Endpoint.isUp, hw, Connection.isConnected]

section

variable [DeviceStore σ]

/-- No consumer makes or breaks a link by itself. -/
theorem isUp_act {a : Action} (ha : a.byConsumer = true) (w : Endpoint ρ σ) :
    (w.act a).isUp = w.isUp := by
  have h := acted_act ha w
  generalize w.act a = w' at h ⊢
  cases h with
  | stops hu h => exact h.calm.isUp.trans hu.calm.isUp
  | seeks running h => exact h.isUp
  | ends h => exact h.calm.isUp
  | aside h => exact h.calm.isUp
  | writes h => exact h.written.calm.isUp
  | drains h => exact h.calm.isUp
  | _ => rfl

theorem isUp_onLinkDown (w : Endpoint ρ σ) : w.onLinkDown.isUp = false := by
  have hdown := linkDownDone_onLinkDown w
  generalize w.onLinkDown = w' at hdown ⊢
  cases hdown with
  | ignored h => simp [Endpoint.isUp, h, Connection.isConnected]
  | failed p h => exact (attempted_tryCandidates _ rfl).isUp
  | cancelled p h => rfl
  | lost p ready h => rfl
  | closed p ready h => rfl

theorem isUp_onLinkUp (w : Endpoint ρ σ) :
    w.onLinkUp.isUp = true ↔
      w.isUp = true ∨ ∃ p, w.transport.connection = .connecting p false := by
  have hup := linkUpDone_onLinkUp w
  generalize w.onLinkUp = w' at hup ⊢
  cases hup with
  | unexpected h =>
    refine ⟨.inl, fun hor => hor.elim id ?_⟩
    rintro ⟨p, hp⟩
    rw [hp] at h
    cases h
  | cancelled p h traffic connection candidates air now =>
    simp [Endpoint.isUp, h, connection, Connection.isConnected]
  | @kept u p h opened taken =>
    refine ⟨fun _ => .inr ⟨p, h⟩, fun _ => ?_⟩
    show u.transport.connection.isConnected = true
    rw [opened.connection]
    rfl
  | dropped p h opened refused dropped =>
    refine ⟨fun _ => .inr ⟨p, h⟩, fun _ => ?_⟩
    rw [Endpoint.isUp, dropped.connection]
    rfl

end

/-- The last turn of a run, when one step more is made. -/
theorem exists_last_turn [DeviceStore σ] (steps : List (Step ρ σ)) (st : Step ρ σ)
    (w : Endpoint (Logged ρ) σ) :
    ∃ t : Turn ρ σ, turns (steps ++ [st]) w = turns steps w ++ [t] ∧ t.step = st ∧
      t.before = w.runLogged steps ∧ t.after = w.runLogged (steps ++ [st]) :=
  ⟨_, turns_concat .., rfl, rfl, (runLogged_concat ..).symm⟩

/-- The calls of a turn are those by which its log grew. -/
theorem Logs.calls [DeviceStore σ] {P : Call → Prop} {t : Turn ρ σ}
    (h : Logs P t.before t.after) : ∀ c ∈ t.calls, P c.1 := by
  obtain ⟨cs, hlog, hcs⟩ := h
  unfold Turn.calls
  rw [hlog, List.drop_left]
  exact hcs

end Endpoint

/-! ## Kinds of turns -/

namespace Turn

open Endpoint

variable {ρ σ : Type} [Radio ρ] [DeviceStore σ] {t : Turn ρ σ}

theorem calls_of_log {cs : List (Call × Bool)}
    (h : t.after.radio.log = t.before.radio.log ++ cs) : t.calls = cs := by
  rw [calls, h, List.drop_left]

inductive Kind (t : Turn ρ σ) : Prop
  | still (idle : ∀ a, t.step = .act a → a.byConsumer = false) (event : t.event? = none)
      (transport : t.after.transport = t.before.transport)
      (log : t.after.radio.log = t.before.radio.log)
  /-- An event is handled; `w` is the endpoint without it. -/
  | handles (e : Event) (w : Endpoint (Logged ρ) σ)
      (idle : ∀ a, t.step = .act a → a.byConsumer = false) (event : t.event? = some e)
      (transport : w.transport = t.before.transport) (radio : w.radio = t.before.radio)
      (after : t.after = w.handle e) (now : w.now = t.before.now)
  | acts (a : Action) (consumer : a.byConsumer = true) (step : t.step = .act a)

theorem kind (t : Turn ρ σ) : t.Kind := by
  obtain ⟨w, st⟩ := t
  cases st with
  | radio f => exact .still nofun rfl rfl rfl
  | store f => exact .still nofun rfl rfl rfl
  | act a =>
    cases ha : a.byConsumer with
    | true => exact .acts a ha rfl
    | false =>
      have idle : ∀ b, (Step.act a : Step ρ σ) = .act b → b.byConsumer = false := by
        rintro _ ⟨⟩
        exact ha
      cases a with
      | handle e => exact .handles e w idle rfl rfl rfl rfl rfl
      | raise e => exact .still idle rfl rfl rfl
      | next =>
        cases hinbox : w.inbox with
        | nil =>
          have hw : after ⟨w, .act .next⟩ = w := handleNext_nil hinbox
          exact .still idle (by simp [event?, hinbox]) (by rw [hw]) (by rw [hw])
        | cons e rest =>
          exact .handles e { w with inbox := rest } idle (by simp [event?, hinbox]) rfl rfl
            (handleNext_cons hinbox) rfl
      | _ => cases ha

omit [Radio ρ] [DeviceStore σ] in
theorem event?_of_consumer {a : Action} (ha : a.byConsumer = true) (h : t.step = .act a) :
    t.event? = none := by
  unfold event?
  rw [h]
  cases a <;> first | rfl | cases ha

theorem handles_of_event {e : Event} (h : t.event? = some e) :
    ∃ w : Endpoint (Logged ρ) σ, w.transport = t.before.transport ∧
      w.radio = t.before.radio ∧ t.after = w.handle e ∧
      ∀ a, t.step = .act a → a.byConsumer = false := by
  cases t.kind with
  | still idle event transport log => simp [event] at h
  | acts a ha hstep => simp [event?_of_consumer ha hstep] at h
  | handles e' w idle event transport radio after =>
    obtain rfl : e' = e := by simpa [event] using h
    exact ⟨w, transport, radio, after, idle⟩

theorem establishes_eq (t : Turn ρ σ) : t.establishes = (!t.before.isUp && t.after.isUp) := rfl

theorem after_of_step {a : Action} (h : t.step = .act a) : t.after = t.before.act a := by
  rw [after, h]
  rfl

/-- A link is established by handling the report of a link that is up while an attempt is under way
that is still wanted. -/
theorem establishes_iff :
    t.establishes = true ↔ t.event? = some .linkUp ∧
      ∃ p, t.before.transport.connection = .connecting p false := by
  have hup : t.establishes = true ↔ t.before.isUp = false ∧ t.after.isUp = true := by
    simp [establishes_eq]
  have hno (h : t.after.isUp = t.before.isUp) : ¬ (t.before.isUp = false ∧ t.after.isUp = true) := by
    rw [h]
    simp
  rw [hup]
  cases t.kind with
  | still idle event transport log =>
    have h : t.after.isUp = t.before.isUp := by rw [Endpoint.isUp, transport]; rfl
    simp [hno h, event]
  | acts a ha hstep =>
    have h : t.after.isUp = t.before.isUp := by rw [after_of_step hstep]; exact isUp_act ha _
    simp [hno h, event?_of_consumer ha hstep]
  | handles e w idle event transport radio after =>
    have hw : t.before.isUp = w.isUp := by rw [Endpoint.isUp, ← transport]; rfl
    rw [event, after, hw, ← transport]
    by_cases hlink : e = .linkUp
    · subst hlink
      change w.isUp = false ∧ w.onLinkUp.isUp = true ↔ _
      rw [isUp_onLinkUp]
      constructor
      · rintro ⟨hdown, hor⟩
        exact ⟨rfl, hor.resolve_left (by simp [hdown])⟩
      · rintro ⟨-, p, hp⟩
        exact ⟨by simp [Endpoint.isUp, hp, Connection.isConnected], .inr ⟨p, hp⟩⟩
    · by_cases hdown : e = .linkDown
      · subst hdown
        change _ ∧ w.onLinkDown.isUp = true ↔ _
        simp [isUp_onLinkDown]
      · have h : (w.handle e).isUp = w.isUp := (calm_handle e w hlink hdown).isUp
        simp [h, hlink]

end Turn

end VehicleLink
