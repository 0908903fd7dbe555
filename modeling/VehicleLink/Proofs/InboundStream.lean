import VehicleLink.Proofs.OutboundStream
import VehicleLink.Proofs.Turns

/-!
# The inbound stream

What arrives on a link is read from it in order, with nothing lost, repeated or carried over to the
next link; while there is no link, nothing is read.

One turn keeps the received bytes, joins a payload to them, takes some from the front, or drops them
while no link is up before it or after it (`Inflow`). So the sums over the turns of a link are equal
as long as it is up (`read_sinceUp`).
-/

namespace VehicleLink

/-- From the bytes received so far, by the payload that came and the bytes that were taken, to those
received then; `up` and `up'` tell whether the link is up before and after. -/
inductive Inflow (up up' : Bool) (b : Inbound) : List UInt8 → List UInt8 → Inbound → Prop
  | kept (h : up' = up) : Inflow up up' b [] [] b
  /-- What comes without a link is not received. -/
  | missed (came : List UInt8) (h : up = false) (h' : up' = false) : Inflow up up' b came [] b
  | joined (came : List UInt8) (h : up = true) (h' : up' = true) :
      Inflow up up' b came [] (b.receive came)
  | read (n : Nat) (h : up = true) (h' : up' = true) :
      Inflow up up' b [] (b.read n).1 (b.read n).2
  | cleared (h : up = false ∨ up' = false) : Inflow up up' b [] [] b.clear

namespace Inflow

variable {up up' : Bool} {b b' : Inbound} {came taken : List UInt8}

theorem splits (h : Inflow true true b came taken b') : b.bytes ++ came = taken ++ b'.bytes := by
  cases h with
  | kept => simp
  | missed came h => cases h
  | joined => rfl
  | read n => simp [Inbound.read]
  | cleared h => simp at h

theorem opens (h : Inflow false true b came taken b') : came = [] ∧ taken = [] ∧ b'.bytes = [] := by
  cases h with
  | kept h => cases h
  | missed came h h' => cases h'
  | joined came h => cases h
  | read n h => cases h
  | cleared => exact ⟨rfl, rfl, rfl⟩

theorem taken_of_down (h : Inflow up up' b came taken b') (hup : up' = false) : taken = [] := by
  cases h with
  | read n h h' => simp [hup] at h'
  | _ => rfl

theorem unread (h : Inflow up up' b came taken b') (hb : up = false → b.bytes = [])
    (hup : up' = false) : b'.bytes = [] := by
  cases h with
  | kept h => exact hb (by rw [← h, hup])
  | missed came h => exact hb h
  | joined came h h' => simp [hup] at h'
  | read n h h' => simp [hup] at h'
  | cleared => rfl

theorem received (h : Inflow up up' b came taken b') :
    b'.received = b.received + if up then came.length else 0 := by
  cases h with
  | missed came h => simp [h]
  | joined came h => simp [h, Inbound.receive]
  | _ => simp [Inbound.read, Inbound.clear]

end Inflow

/-- The bytes that came from the other end. -/
def Event.payload : Event → List UInt8
  | .received bytes => bytes
  | _ => []

namespace Endpoint

variable {ρ σ : Type}

def buffered (w : Endpoint ρ σ) : List UInt8 := w.transport.inbound.bytes

variable [Radio ρ] [DeviceStore σ] {w w' : Endpoint ρ σ}

/-! ## The operations -/

theorem inbound_act {a : Action} (ha : a.byConsumer = true) (hread : ∀ n, a ≠ .read n)
    (w : Endpoint ρ σ) : (w.act a).transport.inbound = w.transport.inbound := by
  have h := acted_act ha w
  generalize w.act a = w' at h ⊢
  cases h with
  | stops hu h => exact h.intake.inbound.trans hu.link.inbound
  | seeks running h => exact h.traffic.inbound
  | ends h => exact h.intake.inbound
  | aside h => exact h.link.inbound
  | writes h => exact h.written.course.inbound
  | reads n => exact absurd rfl (hread n)
  | drains h => exact h.course.inbound
  | _ => rfl

theorem inflow_linkUp (w : Endpoint ρ σ) :
    Inflow w.isUp w.onLinkUp.isUp w.transport.inbound [] [] w.onLinkUp.transport.inbound := by
  have hup := linkUpDone_onLinkUp w
  generalize w.onLinkUp = w' at hup ⊢
  have hdown {p : Address} {teardown : Bool}
      (h : w.transport.connection = .connecting p teardown) : w.isUp = false := by
    simp [isUp, h, Connection.isConnected]
  cases hup with
  | unexpected => exact .kept rfl
  | cancelled p h traffic connection =>
    rw [traffic.inbound]
    exact .kept (by simp [isUp, h, connection, Connection.isConnected])
  | @kept u p h opened taken =>
    change Inflow _ _ _ [] [] u.transport.inbound
    rw [opened.inbound]
    exact .cleared (.inl (hdown h))
  | @dropped u _ p h opened refused dropped =>
    have hinbound : w'.transport.inbound = w.transport.inbound.clear :=
      dropped.traffic.inbound.trans opened.inbound
    rw [hinbound]
    exact .cleared (.inl (hdown h))

theorem inflow_linkDown (w : Endpoint ρ σ) :
    Inflow w.isUp w.onLinkDown.isUp w.transport.inbound [] [] w.onLinkDown.transport.inbound := by
  have hafter := isUp_onLinkDown w
  have hdown := linkDownDone_onLinkDown w
  generalize w.onLinkDown = w' at hdown hafter ⊢
  cases hdown with
  | ignored => exact .kept rfl
  | failed p h =>
    have ha := attempted_tryCandidates (w := w.gone.update (Transport.noteError (.connectFailed p)))
      w.transport.candidates rfl
    rw [ha.traffic.inbound]
    exact .cleared (.inr hafter)
  | _ => exact .cleared (.inr hafter)

theorem inflow_handle (e : Event) (w : Endpoint ρ σ) :
    Inflow w.isUp (w.handle e).isUp w.transport.inbound e.payload []
      (w.handle e).transport.inbound := by
  -- a report that is neither on the link nor a payload leaves both as they are
  have keeps (hup : e ≠ .linkUp) (hdown : e ≠ .linkDown)
      (hpayload : e.payload = [])
      (hinbound : (w.handle e).transport.inbound = w.transport.inbound) :
      Inflow w.isUp (w.handle e).isUp w.transport.inbound e.payload []
        (w.handle e).transport.inbound := by
    rw [hpayload, hinbound]
    exact .kept (calm_handle e w hup hdown).isUp
  cases e with
  | scanResult d => exact keeps nofun nofun rfl (aside_onScanResult d w).link.inbound
  | scanComplete => exact keeps nofun nofun rfl (aside_onScanComplete w).link.inbound
  | linkUp => exact inflow_linkUp w
  | linkDown => exact inflow_linkDown w
  | servicesDiscovered success =>
    exact keeps nofun nofun rfl (discoveredDone_onServicesDiscovered success w).intake.inbound
  | writeComplete success =>
    exact keeps nofun nofun rfl (completedDone_onWriteComplete success w).course.inbound
  | received bytes =>
    have hcalm : (w.handle (.received bytes)).isUp = w.isUp :=
      (calm_handle (.received bytes) w nofun nofun).isUp
    rw [hcalm]
    change Inflow _ _ _ bytes [] (w.onReceived bytes).transport.inbound
    unfold onReceived
    split
    · rename_i h
      exact .joined bytes h h
    · rename_i h
      exact .missed bytes (eq_false_of_ne_true h) (eq_false_of_ne_true h)

omit [Radio ρ] [DeviceStore σ] in
theorem read_of_down (h : w.isUp = false) (n : Nat) : w.read n = ([], w) := by
  rw [Endpoint.read, if_neg]
  rw [isUp] at h
  simp [h]

omit [Radio ρ] [DeviceStore σ] in
theorem hasData_iff_read {n : Nat} (hn : 1 ≤ n) (w : Endpoint ρ σ) :
    w.transport.hasData = true ↔ (w.read n).1 ≠ [] := by
  cases hup : w.transport.connection.isConnected with
  | false => simp [Transport.hasData, read_of_down hup, hup]
  | true =>
    have hzero : n ≠ 0 := by omega
    simp [Transport.hasData, Endpoint.read, hup, Inbound.read, Inbound.hasData, hzero]

end Endpoint

/-! ## Turns -/

namespace Turn

open Endpoint

variable {ρ σ : Type} [Radio ρ] [DeviceStore σ] {t : Turn ρ σ}

omit [Radio ρ] [DeviceStore σ] in
/-- The bytes that came from the other end. -/
def payload (t : Turn ρ σ) : List UInt8 := (t.event?.map Event.payload).getD []

omit [Radio ρ] [DeviceStore σ] in
/-- The bytes that a consumer read. -/
def taken (t : Turn ρ σ) : List UInt8 :=
  match t.step with
  | .act (.read n) => (t.before.read n).1
  | _ => []

omit [Radio ρ] [DeviceStore σ] in
theorem taken_of_no_read (h : ∀ n, t.step ≠ .act (.read n)) : t.taken = [] := by
  unfold taken
  split
  · rename_i n hn
    exact absurd hn (h n)
  · rfl

/-- One turn does one of five things to the received bytes. -/
theorem inflow (t : Turn ρ σ) :
    Inflow t.before.isUp t.after.isUp t.before.transport.inbound t.payload t.taken
      t.after.transport.inbound := by
  cases t.kind with
  | still idle event transport log =>
    have htaken : t.taken = [] := taken_of_no_read fun n hn => by cases idle _ hn
    rw [payload, event, htaken, transport]
    exact .kept (by rw [isUp, transport]; rfl)
  | handles e w idle event transport radio after =>
    have htaken : t.taken = [] := taken_of_no_read fun n hn => by cases idle _ hn
    rw [payload, event, htaken, after, isUp, ← transport]
    exact inflow_handle e w
  | acts a ha hstep =>
    have hup : t.after.isUp = t.before.isUp := by rw [after_of_step hstep]; exact isUp_act ha _
    have hpayload : t.payload = [] := by rw [payload, event?_of_consumer ha hstep]; rfl
    by_cases hread : ∃ n, a = .read n
    · obtain ⟨n, rfl⟩ := hread
      have htaken : t.taken = (t.before.read n).1 := by rw [taken, hstep]
      rw [hup, hpayload, htaken, after_of_step hstep]
      show Inflow _ _ _ [] _ (t.before.read n).2.transport.inbound
      cases hdown : t.before.isUp with
      | false =>
        rw [read_of_down hdown]
        exact .kept rfl
      | true =>
        rw [isUp] at hdown
        rw [Endpoint.read, if_pos hdown]
        exact .read n rfl rfl
    · have htaken : t.taken = [] := taken_of_no_read fun n hn =>
        hread ⟨n, by rw [hstep] at hn; injection hn⟩
      rw [hpayload, htaken, after_of_step hstep, inbound_act ha fun n hn => hread ⟨n, hn⟩]
      exact .kept (isUp_act ha _)

end Turn

namespace Endpoint

variable {ρ σ : Type} [Radio ρ] [DeviceStore σ] {s : LinkSettings} {w : Endpoint (Logged ρ) σ}

open Turn

/-! ## Runs -/

/-- What was read on a link is the front of what came on it, and as long as it is up the rest waits
to be read. -/
theorem read_sinceUp (h : w.isUp = false) (steps : List (Step ρ σ)) :
    let link := sinceUp (turns steps w)
    let u := w.runLogged steps
    (u.isUp = true → link.flatMap taken ++ u.buffered = link.flatMap payload) ∧
      link.flatMap taken <+: link.flatMap payload := by
  induction steps using List.reverseRecOn with
  | nil => exact ⟨fun hup => absurd hup (by simp [runLogged, h]), List.prefix_rfl⟩
  | append_singleton steps st ih =>
    obtain ⟨t, hturns, -, hbefore, hafter⟩ := exists_last_turn steps st w
    obtain ⟨hsplit, hprefix⟩ := ih
    rw [← hbefore] at hsplit
    have hflow := inflow t
    dsimp only
    rw [hturns, sinceUp_concat, establishes_eq, ← hafter]
    cases hup : t.after.isUp with
    | false =>
      -- the link is down now: nothing is read any more
      have htaken : t.taken = [] := hflow.taken_of_down hup
      simpa [htaken] using hprefix.trans (List.prefix_append _ _)
    | true =>
      rw [hup] at hflow
      cases hdown : t.before.isUp with
      | false =>
        rw [hdown] at hflow
        obtain ⟨hpayload, htaken, hbytes⟩ := hflow.opens
        have hbuffered : t.after.buffered = [] := hbytes
        simp [hpayload, htaken, hbuffered]
      | true =>
        rw [hdown] at hflow
        have hturn : t.before.buffered ++ t.payload = t.taken ++ t.after.buffered := hflow.splits
        have hlink : (sinceUp (turns steps w) ++ [t]).flatMap taken ++ t.after.buffered =
            (sinceUp (turns steps w) ++ [t]).flatMap payload := by
          rw [List.flatMap_append, List.flatMap_append, ← hsplit hdown]
          simp [← hturn]
        exact ⟨fun _ => hlink, ⟨_, hlink⟩⟩

/-- The bytes received are those that came while the link was up. -/
theorem received_run (steps : List (Step ρ σ)) :
    (w.runLogged steps).transport.inbound.received = w.transport.inbound.received +
      (((turns steps w).filter fun t => t.before.isUp).flatMap payload).length := by
  induction steps using List.reverseRecOn with
  | nil => rfl
  | append_singleton steps st ih =>
    obtain ⟨t, hturns, -, hbefore, hafter⟩ := exists_last_turn steps st w
    have hturn := (inflow t).received
    rw [hbefore, hafter, ih] at hturn
    rw [hturn, hturns, List.filter_append, List.flatMap_append, List.length_append, Nat.add_assoc]
    cases hup : (w.runLogged steps).isUp <;> simp [hup, hbefore]

/-- The inbound stream of a link, at any moment of any run of a transport that was created. While
the link is up, what was read since it came up and what is still buffered are together what came
since then, in order; what is read on a link at any time came on this link. Without a link nothing is
read. There is data exactly when a read of at least one byte gives some, and the count of received
bytes is that of all that came while a link was up. -/
theorem inbound_stream_faithful {target : Option String} {radio : Logged ρ} {store : σ}
    (hw : create s target radio store = .ok w) (steps : List (Step ρ σ)) :
    let link := sinceUp (turns steps w)
    let u := w.runLogged steps
    (u.isUp = true → link.flatMap taken ++ u.buffered = link.flatMap payload) ∧
    link.flatMap taken <+: link.flatMap payload ∧
    (u.isUp = false → ∀ n, u.read n = ([], u)) ∧
    (∀ n, 1 ≤ n → (u.transport.hasData = true ↔ (u.read n).1 ≠ [])) ∧
    u.transport.health.received =
      (((turns steps w).filter fun t => t.before.isUp).flatMap payload).length := by
  intro link u
  have hfresh : w.isUp = false ∧ w.transport.inbound.received = 0 := by
    obtain ⟨a, devices, -, rfl⟩ := create_eq hw
    exact ⟨rfl, rfl⟩
  obtain ⟨hsplit, hprefix⟩ := read_sinceUp hfresh.1 steps
  refine ⟨hsplit, hprefix, fun hdown n => read_of_down hdown n, fun n hn => hasData_iff_read hn u, ?_⟩
  show u.transport.inbound.received = _
  rw [received_run, hfresh.2, Nat.zero_add]

/-- Three bytes come on a first link, of which two are read, and three on a second one, of which two
are read: the byte that was left on the first link is gone. -/
theorem inbound_stream_of_second_link :
    ∃ (w : Endpoint (Logged Radio.Simulated) Store.Memory)
      (steps : List (Step Radio.Simulated Store.Memory)),
      create {} none ⟨{}, []⟩ {} = .ok w ∧
      (w.runLogged steps).isUp = true ∧
      (turns steps w).flatMap taken = [1, 2, 4, 5] ∧
      (sinceUp (turns steps w)).flatMap payload = [4, 5, 6] ∧
      (w.runLogged steps).buffered = [6] ∧
      (sinceUp (turns steps w)).flatMap taken ++ (w.runLogged steps).buffered =
        (sinceUp (turns steps w)).flatMap payload ∧
      (w.runLogged steps).transport.health.received = 6 := by
  let peer : Option Address := some ⟨1, 2, 3, 4, 5, 6⟩
  let steps : List (Step Radio.Simulated Store.Memory) :=
    [.act .start, .act (.connect peer), .act .next, .act (.handle (.received [1, 2, 3])),
      .act (.read 2), .act (.handle .linkDown), .act (.connect peer), .act .next, .act .next,
      .act (.handle (.received [4, 5, 6])), .act (.read 2)]
  have hw : create {} none (⟨{}, []⟩ : Logged Radio.Simulated) ({} : Store.Memory) = .ok _ := rfl
  exact ⟨_, steps, hw, by decide, by decide, by decide, by decide,
    (inbound_stream_faithful hw steps).1 (by decide), by decide⟩

end Endpoint

end VehicleLink
