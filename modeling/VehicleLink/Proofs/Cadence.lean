import VehicleLink.Proofs.Policies
import VehicleLink.Radio.Simulated
import Mathlib.Data.List.Chain
import Mathlib.Data.List.Induction

/-!
# The cadence of polls

A poll attempts a connection if the transport runs, is disconnected, and the interval in force has
passed since the last poll that did. The instants of those polls are told by the turns alone
(`Turn.noted`): over any run they are what the policy remembers (`paced_run`), no other poll changes
anything, and two of them that follow each other are the interval in force apart (`polls_paced`).
-/

namespace VehicleLink

open Reconnect

/-- Two policies with the same intervals and the same last attempt. -/
structure SamePace (p p' : Policy) : Prop where
  interval : p'.interval = p.interval := by rfl
  fastInterval : p'.fastInterval = p.fastInterval := by rfl
  lastAttempt : p'.lastAttempt = p.lastAttempt := by rfl

theorem SamePace.of_eq {p p' : Policy} (h : p' = p) : SamePace p p' := by
  subst h
  exact {}

namespace Endpoint

variable {ρ σ : Type}

/-- The interval between attempts that is in force. -/
def interval (s : LinkSettings) (w : Endpoint ρ σ) : Nanos :=
  if w.transport.policy.fast then s.fastPollInterval else s.pollInterval

/-- Whether a poll attempts a connection, by the last instant that was noted. An instant before that
one counts as no time since. -/
def attemptsAt (s : LinkSettings) (last : Option Nanos) (instant : Nanos) (w : Endpoint ρ σ) :
    Bool :=
  w.transport.running && w.transport.connection = .disconnected &&
    last.all fun r => w.interval s ≤ instant - r

/-- The policy has the intervals of the settings and remembers an instant. -/
structure Remembers (s : LinkSettings) (last : Option Nanos) (p : Policy) : Prop where
  interval : p.interval = s.pollInterval
  fastInterval : p.fastInterval = s.fastPollInterval
  lastAttempt : p.lastAttempt = last

theorem Remembers.of_same {s : LinkSettings} {last : Option Nanos} {p p' : Policy}
    (h : Remembers s last p) (hsame : SamePace p p') : Remembers s last p' where
  interval := hsame.interval.trans h.interval
  fastInterval := hsame.fastInterval.trans h.fastInterval
  lastAttempt := hsame.lastAttempt.trans h.lastAttempt

theorem Remembers.pollDue {s : LinkSettings} {last : Option Nanos} {w : Endpoint ρ σ}
    (h : Remembers s last w.policy) (instant : Nanos) :
    w.pollDue instant = w.attemptsAt s last instant := by
  have hinterval : w.policy.currentInterval = w.interval s := by
    rw [Policy.currentInterval, h.interval, h.fastInterval]
    rfl
  rw [Endpoint.pollDue, attemptsAt, ← policy, Policy.isDue, h.lastAttempt, hinterval]
  cases last <;> rfl

variable [Radio ρ] [DeviceStore σ]

/-- What a poll does, by the last instant that was noted. -/
theorem Remembers.pollAt {s : LinkSettings} {last : Option Nanos} {w : Endpoint ρ σ}
    (h : Remembers s last w.policy) (instant : Nanos) :
    w.pollAt instant =
      if w.attemptsAt s last instant then (w.connect none).noting instant else w := by
  rw [← h.pollDue]
  split
  · rename_i hdue
    exact pollAt_eq_noting hdue
  · rename_i hdue
    exact pollAt_of_not_due (eq_false_of_ne_true hdue)

theorem samePace_act {a : Action} (ha : a.byConsumer = true)
    (hpoll : ∀ instant, a ≠ .pollAt instant) (w : Endpoint ρ σ) :
    SamePace w.policy (w.act a).policy := by
  by_cases htarget : ∃ target, a = .setTarget target
  · obtain ⟨target, rfl⟩ := htarget
    rcases policy_setTarget w target with hsame | ⟨next, linked, hpolicy⟩
    · exact .of_eq hsame
    · rw [act, hpolicy]
      exact {}
  · exact .of_eq (policy_act w ha (fun target heq => htarget ⟨target, heq⟩) hpoll)

theorem samePace_handle (e : Event) (w : Endpoint ρ σ) : SamePace w.policy (w.handle e).policy := by
  obtain ⟨fast, hpolicy⟩ := policy_handle w e
  rw [hpolicy]
  exact {}

end Endpoint

/-! ## Turns -/

/-- A poll that attempted a connection, with the interval that was in force. -/
structure Polled where
  instant : Nanos
  interval : Nanos
  deriving DecidableEq

/-- The interval in force at the later poll has passed since the earlier one, unless it is zero. -/
def Polled.Apart (r r' : Polled) : Prop := r'.interval ≠ 0 → r.instant + r'.interval ≤ r'.instant

namespace Turn

open Endpoint

variable {ρ σ : Type}

/-- The instant of the poll that the turn makes. -/
def poll? (t : Turn ρ σ) : Option Nanos :=
  match t.step with
  | .act (.pollAt instant) => some instant
  | _ => none

/-- What the turn adds to the polls that attempted. -/
def polled (s : LinkSettings) (noted : List Polled) (t : Turn ρ σ) : List Polled :=
  match t.poll? with
  | some instant =>
    if t.before.attemptsAt s (noted.getLast?.map Polled.instant) instant then
      [⟨instant, t.before.interval s⟩]
    else []
  | none => []

/-- The polls that attempted a connection. -/
def noted (s : LinkSettings) (ts : List (Turn ρ σ)) : List Polled :=
  ts.foldl (fun noted t => noted ++ t.polled s noted) []

theorem noted_concat (s : LinkSettings) (ts : List (Turn ρ σ)) (t : Turn ρ σ) :
    noted s (ts ++ [t]) = noted s ts ++ t.polled s (noted s ts) := by
  rw [noted, List.foldl_append]
  rfl

variable [Radio ρ] [DeviceStore σ]

theorem samePace {t : Turn ρ σ} (h : t.poll? = none) : SamePace t.before.policy t.after.policy := by
  cases t.kind with
  | still idle event transport log => exact .of_eq (congrArg Transport.policy transport)
  | acts a ha hstep =>
    rw [after_of_step hstep]
    refine samePace_act ha (fun instant heq => ?_) t.before
    simp [poll?, hstep, heq] at h
  | handles e w idle event transport radio after =>
    have hpolicy : w.policy = t.before.policy := congrArg Transport.policy transport
    rw [after, ← hpolicy]
    exact samePace_handle e w

omit [Radio ρ] [DeviceStore σ] in
theorem step_of_poll {t : Turn ρ σ} {instant : Nanos} (h : t.poll? = some instant) :
    t.step = .act (.pollAt instant) := by
  unfold poll? at h
  split at h
  · rename_i hstep
    rw [hstep, Option.some.inj h]
  · cases h

/-- The policy remembers the instant that was noted last. -/
theorem remembers {s : LinkSettings} {noted : List Polled} {t : Turn ρ σ}
    (h : Remembers s (noted.getLast?.map Polled.instant) t.before.policy) :
    Remembers s ((noted ++ t.polled s noted).getLast?.map Polled.instant) t.after.policy := by
  cases hpoll : t.poll? with
  | none =>
    rw [polled, hpoll, List.append_nil]
    exact h.of_same (samePace hpoll)
  | some instant =>
    rw [after_of_step (step_of_poll hpoll), act, policy_pollAt, h.pollDue, polled, hpoll]
    dsimp only
    split
    · rw [List.getLast?_concat]
      exact ⟨h.interval, h.fastInterval, rfl⟩
    · rw [List.append_nil]
      exact h

omit [Radio ρ] [DeviceStore σ] in
/-- An instant is noted only when the interval in force has passed since the one before. -/
theorem polled_apart (s : LinkSettings) (noted : List Polled) (t : Turn ρ σ) :
    ∀ r ∈ noted.getLast?, ∀ r' ∈ (t.polled s noted).head?, r.Apart r' := by
  intro r hr r' hr' hne
  unfold polled at hr'
  split at hr'
  · split at hr'
    · rename_i instant _ hattempts
      obtain rfl : ⟨instant, t.before.interval s⟩ = r' := by simpa using hr'
      have hpassed : t.before.interval s ≤ instant - r.instant := by
        rw [Option.mem_def] at hr
        simpa [attemptsAt, hr] using (Bool.and_eq_true_iff.1 hattempts).2
      have hlater : r.instant ≤ instant :=
        Nat.le_of_lt (Nat.lt_of_sub_pos (Nat.lt_of_lt_of_le (Nat.pos_of_ne_zero hne) hpassed))
      exact Nat.add_le_of_le_sub' hlater hpassed
    · cases hr'
  · cases hr'

end Turn

/-! ## Runs -/

namespace Endpoint

open Turn

variable {ρ σ : Type} [Radio ρ] [DeviceStore σ] {s : LinkSettings} {w : Endpoint (Logged ρ) σ}

theorem paced_run (h : Remembers s none w.policy) (steps : List (Step ρ σ)) :
    Remembers s ((noted s (turns steps w)).getLast?.map Polled.instant) (w.runLogged steps).policy ∧
      (noted s (turns steps w)).IsChain Polled.Apart := by
  induction steps using List.reverseRecOn with
  | nil => exact ⟨h, List.isChain_nil⟩
  | append_singleton steps st ih =>
    obtain ⟨hremembers, hapart⟩ := ih
    obtain ⟨t, hturns, -, hbefore, hafter⟩ := exists_last_turn steps st w
    rw [hturns, noted_concat, ← hafter]
    refine ⟨t.remembers (hbefore ▸ hremembers),
      List.isChain_append.2 ⟨hapart, ?_, t.polled_apart s _⟩⟩
    unfold polled
    split
    · split
      · exact List.isChain_singleton _
      · exact List.isChain_nil
    · exact List.isChain_nil

/-- Any run of a transport that was created, with polls at any instants. A further poll is a connect
to what the policy says, with the instant noted, if the transport runs, is disconnected, and no
instant was noted yet or the interval in force has passed since the last one. Otherwise it changes
nothing and makes no call, so that what follows is as if it had not been made; in particular while
the transport is stopped, attempts a connection or has one. The instants noted are those of the
polls that attempted, and two that follow each other are the interval apart that was in force at the
later one, unless it is zero. -/
theorem polls_paced {target : Option String} {radio : Logged ρ} {store : σ}
    (hw : create s target radio store = .ok w) (steps : List (Step ρ σ)) :
    let instants := noted s (turns steps w)
    let u := w.runLogged steps
    (∀ instant, u.pollAt instant =
      if u.attemptsAt s (instants.getLast?.map Polled.instant) instant then
        (u.connect none).noting instant
      else u) ∧
    (∀ instant later, u.transport.running = false ∨ u.transport.isBusy = true →
      u.runLogged (.act (.pollAt instant) :: later) = u.runLogged later) ∧
    u.transport.policy.lastAttempt = instants.getLast?.map Polled.instant ∧
    instants.IsChain Polled.Apart := by
  intro instants u
  have hfresh : Remembers s none w.policy := by
    obtain ⟨a, devices, -, rfl⟩ := create_eq hw
    exact ⟨rfl, rfl, rfl⟩
  obtain ⟨hremembers, hapart⟩ := paced_run hfresh steps
  refine ⟨hremembers.pollAt, fun instant later hno => ?_, hremembers.lastAttempt, hapart⟩
  have hstays : u.pollAt instant = u := by
    refine pollAt_of_not_due (eq_false_of_ne_true fun hdue => ?_)
    obtain ⟨hrun, hdown, -⟩ := pollDue_iff.1 hdue
    rcases hno with hstopped | hbusy
    · rw [hstopped] at hrun
      cases hrun
    · rw [Transport.isBusy, hdown] at hbusy
      cases hbusy
  change (u.pollAt instant).runLogged later = _
  rw [hstays]

/-- The first poll attempts, and so does one a normal interval after it, but not one in between or
before it. After a scan found nothing the fast interval is in force, and a poll made while the link
is up delays none. -/
theorem polls_paced_while_clock_goes_back :
    ∃ (w : Endpoint (Logged Radio.Simulated) Store.Memory)
      (steps : List (Step Radio.Simulated Store.Memory)),
      create { pollInterval := 10, fastPollInterval := 4 } none ⟨{}, []⟩ {} = .ok w ∧
      (turns steps w).filterMap poll? = [7, 16, 3, 17, 20, 21, 24, 25] ∧
      noted { pollInterval := 10, fastPollInterval := 4 } (turns steps w) =
        [⟨7, 10⟩, ⟨17, 10⟩, ⟨21, 4⟩, ⟨25, 4⟩] ∧
      (w.runLogged steps).transport.policy.lastAttempt = some 25 ∧
      (noted { pollInterval := 10, fastPollInterval := 4 } (turns steps w)).IsChain
        Polled.Apart := by
  let settings : LinkSettings := { pollInterval := 10, fastPollInterval := 4 }
  let w : Endpoint (Logged Radio.Simulated) Store.Memory := fresh settings none {} ⟨{}, []⟩ {}
  let poll (instant : Nanos) : Step Radio.Simulated Store.Memory := .act (.pollAt instant)
  let steps : List (Step Radio.Simulated Store.Memory) :=
    [.act .start, poll 7, poll 16, poll 3, poll 17, .act (.handle .scanComplete), poll 20, poll 21,
      .act (.connect (some ⟨1, 2, 3, 4, 5, 6⟩)), .act .next, poll 24, .act (.handle .linkDown),
      poll 25]
  have hw : create settings none (⟨{}, []⟩ : Logged Radio.Simulated) ({} : Store.Memory) = .ok w :=
    rfl
  obtain ⟨-, -, hlast, hapart⟩ := polls_paced hw steps
  exact ⟨w, steps, hw, by decide, by decide, hlast.trans (by decide), hapart⟩

end Endpoint

end VehicleLink
