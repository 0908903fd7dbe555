import VehicleLink.Connection
import Mathlib.Data.List.Induction

/-!
# Attempts and how they end

The operations of a connection in any order, from one that is idle. What an accepted attempt has led
to is told by the answers since it began (`Course`): nothing yet, a link, or one ending, and the
ending tells whether a teardown was noted in between.
-/

namespace VehicleLink

namespace Connection

/-! ## Operations -/

/-- An operation on a connection. -/
inductive Op where
  | begin (peer : Address)
  | up
  | down
  | markReady
  | requestTeardown
  deriving DecidableEq

/-- What an operation answers. -/
inductive Answer where
  | begin (r : Except TransitionError Unit)
  | up (r : Except TransitionError LinkUp)
  | down (r : LinkDown)
  /-- Whether notifications are enabled now. -/
  | markReady (ready : Bool)
  /-- Whether there was a connection to tear down. -/
  | requestTeardown (noted : Bool)
  deriving DecidableEq

/-- What an operation answers, and the connection it leaves. -/
def apply (c : Connection) : Op → Answer × Connection
  | .begin peer =>
    match c.begin peer with
    | .ok c' => (.begin (.ok ()), c')
    | .error e => (.begin (.error e), c)
  | .up =>
    match c.up with
    | .ok (r, c') => (.up (.ok r), c')
    | .error e => (.up (.error e), c)
  | .down => (.down c.down.1, c.down.2)
  | .markReady => (.markReady c.markReady.isReady, c.markReady)
  | .requestTeardown =>
    match c.requestTeardown? with
    | some c' => (.requestTeardown true, c')
    | none => (.requestTeardown false, c)

/-- An operation on a connection, in a history. -/
structure Applied where
  before : Connection
  op : Op

namespace Applied

def answer (e : Applied) : Answer := (e.before.apply e.op).1

def after (e : Applied) : Connection := (e.before.apply e.op).2

end Applied

/-- The operations, each with the connection before it. -/
def history (c : Connection) : List Op → List Applied
  | [] => []
  | op :: ops => ⟨c, op⟩ :: history (c.apply op).2 ops

def applyAll (c : Connection) (ops : List Op) : Connection :=
  ops.foldl (fun c op => (c.apply op).2) c

theorem history_append (c : Connection) (ops ops' : List Op) :
    c.history (ops ++ ops') = c.history ops ++ (c.applyAll ops).history ops' := by
  induction ops generalizing c with
  | nil => rfl
  | cons op ops ih => exact congrArg (_ :: ·) (ih _)

/-! ## What one operation does -/

/-- The moves between phases. -/
inductive Moves : Phase → Phase → Prop
  | attempt : Moves .disconnected .connecting
  | establish : Moves .connecting .connected
  | giveUp : Moves .connecting .disconnected
  | drop : Moves .connected .disconnected

/-- An attempt began. -/
def Answer.begins : Answer → Bool
  | .begin (.ok _) => true
  | _ => false

/-- The operation was rejected or ignored. -/
def Answer.refuses : Answer → Bool
  | .begin (.error _) => true
  | .up (.error _) => true
  | .down .ignored => true
  | .markReady ready => !ready
  | .requestTeardown noted => !noted
  | _ => false

theorem moves_apply (c : Connection) (op : Op) :
    (c.apply op).2.phase = c.phase ∨ Moves c.phase (c.apply op).2.phase := by
  cases c with
  | disconnected =>
    cases op with
    | begin => exact .inr .attempt
    | _ => exact .inl rfl
  | connecting peer teardown =>
    cases op with
    | up =>
      cases teardown with
      | false => exact .inr .establish
      | true => exact .inr .giveUp
    | down => cases teardown <;> exact .inr .giveUp
    | _ => exact .inl rfl
  | connected peer ready teardown =>
    cases op with
    | down => cases teardown <;> exact .inr .drop
    | _ => exact .inl rfl

theorem begin_accepted_iff (c : Connection) (peer : Address) :
    (c.apply (.begin peer)).1 = .begin (.ok ()) ↔ c.phase = .disconnected := by
  cases c <;> simp [apply, Connection.begin, phase]

theorem disconnected_of_begins {c : Connection} {peer : Address}
    (h : (c.apply (.begin peer)).1.begins = true) : c = .disconnected := by
  cases c with
  | disconnected => rfl
  | _ => cases h

theorem after_begins {c : Connection} {peer : Address}
    (h : (c.apply (.begin peer)).1.begins = true) :
    (c.apply (.begin peer)).2 = connecting peer false := by
  cases disconnected_of_begins h
  rfl

theorem up_refused_iff (c : Connection) :
    (∃ error, (c.apply .up).1 = .up (.error error)) ↔ c.phase ≠ .connecting := by
  cases c with
  | connecting peer teardown => cases teardown <;> simp [apply, Connection.up, phase]
  | _ => simp [apply, Connection.up, phase]

theorem down_ignored_iff (c : Connection) :
    (c.apply .down).1 = .down .ignored ↔ c.phase = .disconnected := by
  cases c with
  | disconnected => simp [apply, Connection.down, phase]
  | connecting peer teardown => cases teardown <;> simp [apply, Connection.down, phase]
  | connected peer ready teardown => cases teardown <;> simp [apply, Connection.down, phase]

/-- What is rejected or ignored changes nothing. -/
theorem apply_of_refuses {c : Connection} {op : Op} (h : (c.apply op).1.refuses = true) :
    (c.apply op).2 = c := by
  cases c with
  | disconnected =>
    cases op with
    | begin => cases h
    | _ => rfl
  | connecting peer teardown =>
    cases op with
    | up => cases teardown <;> cases h
    | down => cases teardown <;> cases h
    | requestTeardown => cases h
    | _ => rfl
  | connected peer ready teardown =>
    cases op with
    | down => cases teardown <;> cases h
    | markReady => cases h
    | requestTeardown => cases h
    | _ => rfl

namespace Applied

/-- What holds of any operation. -/
structure Lawful (e : Applied) : Prop where
  moves : e.after.phase = e.before.phase ∨ Moves e.before.phase e.after.phase
  begins : ∀ peer, e.op = .begin peer →
    (e.answer = .begin (.ok ()) ↔ e.before.phase = .disconnected)
  rises : e.op = .up → ((∃ error, e.answer = .up (.error error)) ↔ e.before.phase ≠ .connecting)
  falls : e.op = .down → (e.answer = .down .ignored ↔ e.before.phase = .disconnected)
  unchanged : e.answer.refuses = true → e.after = e.before

theorem lawful (e : Applied) : e.Lawful where
  moves := moves_apply e.before e.op
  begins peer h := by rw [answer, h]; exact begin_accepted_iff e.before peer
  rises h := by rw [answer, h]; exact up_refused_iff e.before
  falls h := by rw [answer, h]; exact down_ignored_iff e.before
  unchanged := apply_of_refuses

end Applied

/-! ## What an attempt leads to -/

/-- What the reports of the radio tell of an attempt. -/
inductive Outcome where
  | established (peer : Address)
  | attemptFailed (peer : Address)
  | attemptCancelled (peer : Address)
  | cancelled (peer : Address)
  | lost (peer : Address)
  | closed (peer : Address)
  deriving DecidableEq

/-- Nothing is left of the attempt. -/
def Outcome.ends : Outcome → Bool
  | .established _ => false
  | _ => true

namespace Answer

def outcome? : Answer → Option Outcome
  | .up (.ok (.established peer)) => some (.established peer)
  | .up (.ok (.cancelled peer)) => some (.cancelled peer)
  | .down (.attemptFailed peer) => some (.attemptFailed peer)
  | .down (.attemptCancelled peer) => some (.attemptCancelled peer)
  | .down (.lost peer) => some (.lost peer)
  | .down (.closed peer) => some (.closed peer)
  | _ => none

/-- A teardown was noted. -/
def withdraws : Answer → Bool
  | .requestTeardown noted => noted
  | _ => false

end Answer

/-- What an attempt of `peer` has led to: the connection it is or was, whether a teardown was noted
since it began, and the outcomes in order. -/
inductive Course (peer : Address) : Connection → Bool → List Outcome → Prop
  | attempted (withdrawn : Bool) : Course peer (.connecting peer withdrawn) withdrawn []
  | established (ready withdrawn : Bool) :
      Course peer (.connected peer ready withdrawn) withdrawn [.established peer]
  | attemptFailed : Course peer .disconnected false [.attemptFailed peer]
  | attemptCancelled : Course peer .disconnected true [.attemptCancelled peer]
  | cancelled : Course peer .disconnected true [.cancelled peer]
  | lost : Course peer .disconnected false [.established peer, .lost peer]
  | closed : Course peer .disconnected true [.established peer, .closed peer]

/-- A teardown was noted in the history. -/
def withdrawnIn (es : List Applied) : Bool := es.any (·.answer.withdraws)

def outcomesIn (es : List Applied) : List Outcome := es.flatMap (·.answer.outcome?.toList)

theorem withdrawnIn_concat (es : List Applied) (e : Applied) :
    withdrawnIn (es ++ [e]) = (e.answer.withdraws || withdrawnIn es) := by
  simp [withdrawnIn, Bool.or_comm]

theorem outcomesIn_concat (es : List Applied) (e : Applied) :
    outcomesIn (es ++ [e]) = outcomesIn es ++ e.answer.outcome?.toList := by
  simp [outcomesIn]

namespace Course

variable {peer : Address} {c : Connection} {withdrawn : Bool} {outcomes : List Outcome}

/-- Without a connection only an attempt does anything. -/
theorem step_disconnected (h : Course peer .disconnected withdrawn outcomes) {op : Op}
    (hop : (apply .disconnected op).1.begins = false) :
    Course peer (apply .disconnected op).2 ((apply .disconnected op).1.withdraws || withdrawn)
      (outcomes ++ (apply .disconnected op).1.outcome?.toList) := by
  cases op with
  | begin => cases hop
  | _ => exact (List.append_nil outcomes).symm ▸ h

/-- One operation more, that does not begin an attempt. -/
theorem step (h : Course peer c withdrawn outcomes) {op : Op}
    (hop : (c.apply op).1.begins = false) :
    Course peer (c.apply op).2 ((c.apply op).1.withdraws || withdrawn)
      (outcomes ++ (c.apply op).1.outcome?.toList) := by
  cases h with
  | attempted =>
    cases op with
    | begin => exact attempted withdrawn
    | up =>
      cases withdrawn with
      | false => exact established false false
      | true => exact cancelled
    | down =>
      cases withdrawn with
      | false => exact attemptFailed
      | true => exact attemptCancelled
    | markReady => exact attempted withdrawn
    | requestTeardown => exact attempted true
  | established ready =>
    cases op with
    | begin => exact established ready withdrawn
    | up => exact established ready withdrawn
    | down =>
      cases withdrawn with
      | false => exact lost
      | true => exact closed
    | markReady => exact established true withdrawn
    | requestTeardown => exact established false true
  | attemptFailed => exact attemptFailed.step_disconnected hop
  | attemptCancelled => exact attemptCancelled.step_disconnected hop
  | cancelled => exact cancelled.step_disconnected hop
  | lost => exact lost.step_disconnected hop
  | closed => exact closed.step_disconnected hop

/-- What a history leads to in which no other attempt begins. -/
theorem of_history {ops : List Op} :
    let es := (connecting peer false).history ops
    (∀ e ∈ es, e.answer.begins = false) →
      Course peer ((connecting peer false).applyAll ops) (withdrawnIn es) (outcomesIn es) := by
  induction ops using List.reverseRecOn with
  | nil => exact fun _ => attempted false
  | append_singleton ops op ih =>
    intro es hes
    have hconcat : es = (connecting peer false).history ops ++
        [⟨(connecting peer false).applyAll ops, op⟩] := history_append _ ops [op]
    rw [hconcat] at hes
    have hstep := (ih fun e he => hes e (List.mem_append_left _ he)).step
      (hes _ (List.mem_append_right _ (List.mem_singleton_self _)))
    rw [hconcat, applyAll, List.foldl_append, outcomesIn_concat, withdrawnIn_concat]
    exact hstep

/-- Without a connection the attempt has ended, once. -/
theorem ends_once (h : Course peer .disconnected withdrawn outcomes) :
    outcomes.countP Outcome.ends = 1 := by
  cases h <;> rfl

end Course

/-- Every operation in a history keeps its law. What an accepted attempt has led to, while no other
was accepted, is one of the courses, and the attempt has ended once when another is accepted. -/
theorem attempts_end_once :
    (∀ ops, ∀ e ∈ disconnected.history ops, e.Lawful) ∧
    ∀ (earlier : List Op) (peer : Address) (since : List Op),
      let first := (disconnected.applyAll earlier).apply (.begin peer)
      let es := first.2.history since
      first.1.begins = true → (∀ e ∈ es, e.answer.begins = false) →
        Course peer (first.2.applyAll since) (withdrawnIn es) (outcomesIn es) ∧
        ∀ next, ((first.2.applyAll since).apply (.begin next)).1.begins = true →
          (outcomesIn es).countP Outcome.ends = 1 := by
  refine ⟨fun ops e _ => e.lawful, ?_⟩
  intro earlier peer since first es hfirst hes
  have hbegun : first.2 = connecting peer false := after_begins hfirst
  have hcourse : Course peer (first.2.applyAll since) (withdrawnIn es) (outcomesIn es) := by
    simp only [es, hbegun] at hes ⊢
    exact Course.of_history hes
  refine ⟨hcourse, fun next hnext => ?_⟩
  rw [disconnected_of_begins hnext] at hcourse
  exact hcourse.ends_once

/-- An attempt is torn down and cancelled. The next one is established, an attempt that is asked for
meanwhile is rejected, a teardown is noted and the link is closed; then another can begin. -/
theorem attempts_end_once_closed :
    let p : Address := ⟨0, 0, 0, 0, 0, 1⟩
    let q : Address := ⟨0, 0, 0, 0, 0, 2⟩
    let first := (disconnected.applyAll [.begin p, .requestTeardown, .up]).apply (.begin q)
    let since : List Op := [.up, .markReady, .begin p, .requestTeardown, .down, .requestTeardown]
    let es := first.2.history since
    first.1.begins = true ∧ (∀ e ∈ es, e.answer.begins = false) ∧
      Course q .disconnected true [.established q, .closed q] ∧
      ((first.2.applyAll since).apply (.begin p)).1.begins = true ∧
      (outcomesIn es).countP Outcome.ends = 1 := by
  intro p q first since es
  have hfirst : first.1.begins = true := by decide
  have hes : ∀ e ∈ es, e.answer.begins = false := by decide
  have hnext : ((first.2.applyAll since).apply (.begin p)).1.begins = true := by decide
  obtain ⟨hcourse, hends⟩ := attempts_end_once.2 _ q since hfirst hes
  exact ⟨hfirst, hes, hcourse, hnext, hends p hnext⟩

end Connection

end VehicleLink
