import VehicleLink.Proofs.Lifecycle

/-!
# Readiness and teardown

A teardown that is noted withdraws the readiness of a link. That notifications are enabled gives it
back, whether the link is still wanted or not; so readiness and teardown are kept apart exactly by
those histories in which nothing revives a link that is to be torn down (`Applied.revives`).
-/

namespace VehicleLink.Connection

/-- Ready for use, although no longer wanted. -/
def isRevived (c : Connection) : Bool := c.isReady && c.teardownRequested

/-- The link of an attempt came up. -/
def Answer.establishes : Answer → Bool
  | .up (.ok (.established _)) => true
  | _ => false

namespace Applied

/-- Notifications are reported enabled on a link of which the teardown was noted. -/
def revives (e : Applied) : Bool :=
  match e.op with
  | .markReady => e.before.isConnected && e.before.teardownRequested
  | _ => false

end Applied

/-! ## What one operation does -/

theorem isRevived_apply {c : Connection} (h : c.isRevived = false) (op : Op) :
    (c.apply op).2.isRevived = Applied.revives ⟨c, op⟩ := by
  cases c with
  | disconnected => cases op <;> rfl
  | connecting peer teardown => cases op <;> cases teardown <;> rfl
  | connected peer ready teardown =>
    cases op with
    | begin => exact h
    | up => exact h
    | down => cases teardown <;> rfl
    | markReady => rfl
    | requestTeardown => rfl

/-- A teardown that is noted takes the readiness away. -/
theorem apply_requestTeardown {c : Connection}
    (h : (c.apply .requestTeardown).1 = .requestTeardown true) :
    (c.apply .requestTeardown).2.isReady = false ∧
      (c.apply .requestTeardown).2.teardownRequested = true := by
  cases c with
  | disconnected => cases h
  | connecting peer teardown => exact ⟨rfl, rfl⟩
  | connected peer ready teardown => exact ⟨rfl, rfl⟩

/-- The link that is up, if any, is to be torn down. -/
def Unwanted (c : Connection) : Prop := c.isConnected = true → c.teardownRequested = true

theorem Unwanted.isReady {c : Connection} (h : c.Unwanted) : c.isReady = c.isRevived := by
  cases c with
  | connected peer ready teardown =>
    obtain rfl : teardown = true := h rfl
    exact (Bool.and_true ready).symm
  | _ => rfl

/-- Only a link that is established is wanted again. -/
theorem Unwanted.apply {c : Connection} (h : c.Unwanted) {op : Op}
    (hop : (c.apply op).1.establishes = false) : (c.apply op).2.Unwanted := by
  cases c with
  | disconnected => cases op <;> exact nofun
  | connecting peer teardown =>
    cases op with
    | up =>
      cases teardown with
      | false => cases hop
      | true => exact nofun
    | down => cases teardown <;> exact nofun
    | _ => exact nofun
  | connected peer ready teardown =>
    cases op with
    | down => cases teardown <;> exact nofun
    | requestTeardown => exact fun _ => rfl
    | _ => exact h

/-- There is no connection, or the one there is is to be torn down. -/
def Dismissed (c : Connection) : Prop := c = .disconnected ∨ c.teardownRequested = true

/-- Until another attempt begins no link is established. -/
theorem Dismissed.apply {c : Connection} (h : c.Dismissed) {op : Op}
    (hop : (c.apply op).1.begins = false) :
    (c.apply op).1.establishes = false ∧ (c.apply op).2.Dismissed := by
  cases c with
  | disconnected =>
    cases op with
    | begin => cases hop
    | _ => exact ⟨rfl, .inl rfl⟩
  | connecting peer teardown =>
    obtain rfl : teardown = true := h.resolve_left nofun
    cases op with
    | up => exact ⟨rfl, .inl rfl⟩
    | down => exact ⟨rfl, .inl rfl⟩
    | _ => exact ⟨rfl, .inr rfl⟩
  | connected peer ready teardown =>
    obtain rfl : teardown = true := h.resolve_left nofun
    cases op with
    | down => exact ⟨rfl, .inl rfl⟩
    | _ => exact ⟨rfl, .inr rfl⟩

/-! ## Histories -/

theorem isRevived_history_iff {c : Connection} (h : c.isRevived = false) (ops : List Op) :
    (∀ e ∈ c.history ops, e.after.isRevived = false) ↔
      ∀ e ∈ c.history ops, e.revives = false := by
  induction ops generalizing c with
  | nil => simp [history]
  | cons op ops ih =>
    have hstep : (c.apply op).2.isRevived = Applied.revives ⟨c, op⟩ := isRevived_apply h op
    rw [history, List.forall_mem_cons, List.forall_mem_cons]
    -- what revives the link first settles both sides; before that the two say the same
    cases hrevives : Applied.revives ⟨c, op⟩ with
    | true => simp [Applied.after, hstep, hrevives]
    | false => exact and_congr (by simp [Applied.after, hstep, hrevives]) (ih (hstep.trans hrevives))

/-- What every operation keeps under a condition holds before each operation of a history in which
all meet the condition. -/
theorem history_induction {P : Connection → Prop} {Q : Applied → Prop}
    (hstep : ∀ e : Applied, P e.before → Q e → P e.after) {c : Connection} (h : P c)
    {ops : List Op} (hops : ∀ e ∈ c.history ops, Q e) : ∀ e ∈ c.history ops, P e.before := by
  induction ops generalizing c with
  | nil => simp [history]
  | cons op ops ih =>
    rw [history, List.forall_mem_cons] at hops ⊢
    exact ⟨h, ih (hstep ⟨c, op⟩ h hops.1) hops.2⟩

theorem unwanted_history {c : Connection} (h : c.Unwanted) {ops : List Op}
    (hops : ∀ e ∈ c.history ops, e.answer.establishes = false) :
    ∀ e ∈ c.history ops, e.after.Unwanted := fun e he =>
  (history_induction (fun _ hbefore hop => hbefore.apply hop) h hops e he).apply (hops e he)

theorem dismissed_history {c : Connection} (h : c.Dismissed) {ops : List Op}
    (hops : ∀ e ∈ c.history ops, e.answer.begins = false) :
    ∀ e ∈ c.history ops, e.answer.establishes = false := fun e he =>
  ((history_induction (fun _ hbefore hop => (hbefore.apply hop).2) h hops e he).apply (hops e he)).1

/-- Any operations, in any order. Done on a connection that is idle, they leave it nowhere ready and
to be torn down at once exactly if nothing revives a link that is to be torn down. Done after a
teardown that was noted, which takes the readiness away, they establish no link before another
attempt was accepted; and until one is established, the connection is not ready again exactly if
nothing revives the link. -/
theorem readiness_withdrawn_iff (ops : List Op) :
    ((∀ e ∈ disconnected.history ops,
        ¬ (e.after.isReady = true ∧ e.after.teardownRequested = true)) ↔
      ∀ e ∈ disconnected.history ops, e.revives = false) ∧
    ∀ earlier : List Op,
      let torn := (disconnected.applyAll earlier).apply .requestTeardown
      let es := torn.2.history ops
      torn.1 = .requestTeardown true →
        torn.2.isReady = false ∧ torn.2.teardownRequested = true ∧
        ((∀ e ∈ es, e.answer.begins = false) → ∀ e ∈ es, e.answer.establishes = false) ∧
        ((∀ e ∈ es, e.answer.establishes = false) →
          ((∀ e ∈ es, e.after.isReady = false) ↔ ∀ e ∈ es, e.revives = false)) := by
  constructor
  · have hboth (e : Applied) : ¬ (e.after.isReady = true ∧ e.after.teardownRequested = true) ↔
        e.after.isRevived = false := by
      simp [isRevived]
    simp only [hboth]
    exact isRevived_history_iff rfl ops
  · intro earlier torn es hnoted
    obtain ⟨hready, hteardown⟩ := apply_requestTeardown hnoted
    refine ⟨hready, hteardown, dismissed_history (.inr hteardown), fun hnone => ?_⟩
    have hunwanted : ∀ e ∈ es, e.after.Unwanted :=
      unwanted_history (fun _ => hteardown) hnone
    have hsame : (∀ e ∈ es, e.after.isReady = false) ↔ ∀ e ∈ es, e.after.isRevived = false :=
      forall₂_congr fun e he => by rw [(hunwanted e he).isReady]
    have hrevived : torn.2.isRevived = false := by
      rw [isRevived, hready, Bool.false_and]
    exact hsame.trans (isRevived_history_iff hrevived ops)

/-- On a link that is ready a teardown is noted, notifications are reported enabled once the link is
closed, and another attempt is made: nothing is ready from the teardown on. -/
theorem readiness_withdrawn_of_closed :
    let p : Address := ⟨0, 0, 0, 0, 0, 1⟩
    let torn := (disconnected.applyAll [.begin p, .up, .markReady]).apply .requestTeardown
    let es := torn.2.history [.down, .markReady, .begin p, .markReady]
    torn.1 = .requestTeardown true ∧ (∀ e ∈ es, e.answer.establishes = false) ∧
      ∀ e ∈ es, e.after.isReady = false := by
  intro p torn es
  have hnoted : torn.1 = .requestTeardown true := by decide
  have hnone : ∀ e ∈ es, e.answer.establishes = false := by decide
  obtain ⟨-, hwithdrawn⟩ := readiness_withdrawn_iff [.down, .markReady, .begin p, .markReady]
  obtain ⟨-, -, -, hiff⟩ := hwithdrawn [.begin p, .up, .markReady] hnoted
  exact ⟨hnoted, hnone, (hiff hnone).2 (by decide)⟩

/-- A teardown of a link that is up is noted; then notifications are reported enabled, and the link
is ready although it is to be torn down. -/
theorem ready_while_torn_down :
    let p : Address := ⟨0, 0, 0, 0, 0, 1⟩
    let torn := (disconnected.applyAll [.begin p, .up]).apply .requestTeardown
    let late := torn.2.apply .markReady
    torn.1 = .requestTeardown true ∧ late.1 = .markReady true ∧ late.2.isReady = true ∧
      late.2.teardownRequested = true := by
  decide

end VehicleLink.Connection
