import VehicleLink.Proofs.Cancellation
import VehicleLink.Proofs.Target

/-!
# A stop beside calls under way

`stop`, `connect` and `poll` are made of sections that nothing else can come between; in a row they
are the whole calls (`run_connect`, `run_poll`, `run_stop`). `Callers` is an endpoint with calls
that have some of their sections behind them, and a `Move` is a section or anything else that
happens.

The check whether the transport runs is a section of its own, so a connect that has passed it goes
on to plan and attempt after a stop has returned (`connect_comes_through`). A stop that returns
blocks attempts for good exactly if no connect is past that check then (`stop_blocks_iff`): the
others find the transport stopped, and what was under way is not wanted any more.
-/

namespace VehicleLink

/-- Whether a step is a call that is taken here by its sections, or a start. -/
def Step.isControl {ρ σ : Type} : Step ρ σ → Bool
  | .act .start => true
  | .act .stop => true
  | .act (.connect _) => true
  | .act (.pollAt _) => true
  | _ => false

/-- What is left of a connect or a poll. -/
inductive Rest where
  /-- It found the transport running: it plans and attempts. -/
  | body (target : Option Address)
  /-- A poll found the transport running: it checks whether it is due. -/
  | claim (instant : Nanos)
  /-- A poll is due: it asks for a connection. -/
  | ask
  deriving DecidableEq

/-- How far a stop is. -/
inductive Stopping where
  | uncalled
  | halted
  | forgotten
  | returned
  deriving DecidableEq

/-- An endpoint with calls under way. -/
structure Callers (ρ σ : Type) where
  endpoint : Endpoint (Logged ρ) σ
  /-- What is left of the connects and polls, each in its thread. -/
  pending : List Rest := []
  stopping : Stopping := .uncalled

namespace Callers

/-- A section of a call, or anything else that happens to the endpoint. -/
inductive Move (ρ σ : Type) where
  /-- A connect begins with its check. -/
  | connect (target : Option Address)
  /-- A poll begins with its check. -/
  | poll (instant : Nanos)
  /-- The next section of a connect or a poll. -/
  | resume (k : Nat)
  /-- The next section of the stop. -/
  | stop
  | other (s : Step ρ σ) (h : s.isControl = false)

variable {ρ σ : Type}

/-- A call goes on if the transport runs. -/
def check (r : Rest) (q : Callers ρ σ) : Callers ρ σ :=
  if q.endpoint.transport.running then { q with pending := q.pending ++ [r] } else q

def phase (q : Callers ρ σ) : Phase := q.endpoint.transport.connection.phase

variable [Radio ρ] [DeviceStore σ]

/-- One section of a connect or a poll, with what is left then. -/
def callSection (r : Rest) (w : Endpoint (Logged ρ) σ) : Option Rest × Endpoint (Logged ρ) σ :=
  match r with
  | .body target => (none, w.connectBody target)
  | .claim instant =>
    let (due, w) := w.claimPoll instant
    (if due then some .ask else none, w)
  | .ask => (if w.transport.running then some (.body none) else none, w)

/-- One section of a stop, with how far it is then. -/
def stopSection (stopping : Stopping) (w : Endpoint (Logged ρ) σ) :
    Stopping × Endpoint (Logged ρ) σ :=
  match stopping with
  | .uncalled =>
    let (ran, w) := w.halt
    (if ran then .halted else .returned, w)
  | .halted => (.forgotten, w.forgetScan)
  | .forgotten => (.returned, w.disconnect)
  | .returned => (.returned, w)

/-- Carries out a move; one that is not possible changes nothing. -/
def move (m : Move ρ σ) (q : Callers ρ σ) : Callers ρ σ :=
  match m with
  | .connect target => q.check (.body target)
  | .poll instant => q.check (.claim instant)
  | .resume k =>
    match q.pending[k]? with
    | none => q
    | some r =>
      let (left, endpoint) := callSection r q.endpoint
      { q with endpoint, pending := q.pending.take k ++ left.toList ++ q.pending.drop (k + 1) }
  | .stop =>
    let (stopping, endpoint) := stopSection q.stopping q.endpoint
    { q with endpoint, stopping }
  | .other s _ => { q with endpoint := q.endpoint.step s.logged }

def run (ms : List (Move ρ σ)) (q : Callers ρ σ) : Callers ρ σ := ms.foldl (fun q m => q.move m) q

/-- The calls to the radio that a move made, each with its answer. -/
def calls (m : Move ρ σ) (q : Callers ρ σ) : List (Call × Bool) :=
  (q.move m).endpoint.radio.log.drop q.endpoint.radio.log.length

/-- A move makes no attempt, and the phase does not go on. -/
structure Blocked (m : Move ρ σ) (q : Callers ρ σ) : Prop where
  unasked : ∀ a ok, (.connect a, ok) ∉ q.calls m
  phase : (q.move m).phase = q.phase ∨ (q.move m).phase = .disconnected

/-! ## Whole calls -/

section

omit [Radio ρ] [DeviceStore σ]

theorem check_of_running {q : Callers ρ σ} (h : q.endpoint.transport.running = true) (r : Rest) :
    q.check r = { q with pending := q.pending ++ [r] } := by
  rw [check, if_pos h]

theorem check_of_stopped {q : Callers ρ σ} (h : q.endpoint.transport.running = false) (r : Rest) :
    q.check r = q := by
  rw [check, if_neg (by simp [h])]

end

variable {q : Callers ρ σ}

theorem move_resume {k : Nat} {r : Rest} (h : q.pending[k]? = some r) :
    q.move (.resume k) =
      { q with
        endpoint := (callSection r q.endpoint).2
        pending := q.pending.take k ++ (callSection r q.endpoint).1.toList ++
          q.pending.drop (k + 1) } := by
  rw [move, h]

theorem move_resume_none {k : Nat} (h : q.pending[k]? = none) : q.move (.resume k) = q := by
  rw [move, h]

section

variable {w : Endpoint (Logged ρ) σ} {ps : List Rest} {st : Stopping}

/-- The newest call is at the end of those under way. -/
theorem move_resume_last {r : Rest} :
    (⟨w, ps ++ [r], st⟩ : Callers ρ σ).move (.resume ps.length) =
      ⟨(callSection r w).2, ps ++ (callSection r w).1.toList, st⟩ := by
  rw [move_resume (r := r) (by simp)]
  simp

theorem move_resume_end :
    (⟨w, ps, st⟩ : Callers ρ σ).move (.resume ps.length) = ⟨w, ps, st⟩ :=
  move_resume_none (by simp)

theorem run_check_body (target : Option Address) :
    ((⟨w, ps, st⟩ : Callers ρ σ).check (.body target)).move (.resume ps.length) =
      ⟨w.connect target, ps, st⟩ := by
  cases hrun : w.transport.running with
  | true =>
    rw [check_of_running hrun, move_resume_last, Endpoint.connect_of_running hrun]
    simp [callSection]
  | false => rw [check_of_stopped hrun, move_resume_end, Endpoint.connect_of_stopped hrun]

end

/-- The two sections of a connect in a row are a connect. -/
theorem run_connect (target : Option Address) (q : Callers ρ σ) :
    q.run [.connect target, .resume q.pending.length] =
      { q with endpoint := q.endpoint.connect target } :=
  run_check_body target

/-- The four sections of a poll in a row are a poll. -/
theorem run_poll (instant : Nanos) (q : Callers ρ σ) :
    q.run [.poll instant, .resume q.pending.length, .resume q.pending.length,
        .resume q.pending.length] =
      { q with endpoint := q.endpoint.pollAt instant } := by
  obtain ⟨w, ps, st⟩ := q
  show ((((⟨w, ps, st⟩ : Callers ρ σ).check (.claim instant)).move (.resume ps.length)).move
    (.resume ps.length)).move (.resume ps.length) = ⟨w.pollAt instant, ps, st⟩
  cases hrun : w.transport.running with
  | false =>
    rw [check_of_stopped hrun, move_resume_end, move_resume_end, move_resume_end,
      Endpoint.pollAt_of_stopped hrun]
  | true =>
    rw [check_of_running hrun, move_resume_last, Endpoint.pollAt, if_pos hrun]
    rcases hclaim : w.claimPoll instant with ⟨due, u⟩
    cases due with
    | false => simp [callSection, hclaim, move_resume_end]
    | true =>
      have hask : (⟨u, ps ++ [.ask], st⟩ : Callers ρ σ).move (.resume ps.length) =
          (⟨u, ps, st⟩ : Callers ρ σ).check (.body none) := by
        rw [move_resume_last, check, callSection]
        cases u.transport.running <;> simp
      simp [callSection, hclaim, hask, run_check_body]

/-- The three sections of a stop in a row are a stop. -/
theorem run_stop (h : q.stopping = .uncalled) :
    q.run [.stop, .stop, .stop] =
      { q with endpoint := q.endpoint.stop, stopping := .returned } := by
  obtain ⟨w, ps, st⟩ := q
  obtain rfl : st = .uncalled := h
  rcases hhalt : w.halt with ⟨ran, u⟩
  cases ran <;> simp [run, move, stopSection, Endpoint.stop, hhalt]

/-! ## What moves keep -/

open Endpoint Turn

omit [DeviceStore σ] in
theorem moves_stopSection (st : Stopping) (w : Endpoint (Logged ρ) σ) :
    Moves none w (stopSection st w).2 := by
  cases st with
  | uncalled =>
    show Moves none w w.halt.2
    rw [halt]
    split
    · have hhalted : Moves none w w.halted := .of_same rfl rfl rfl
      have hscan : Aside w.halted (w.halted.issue .stopScan) := .submit _ rfl
      exact hhalted.trans hscan.moves
    · exact .refl w
  | halted => exact (aside_forgetScan w).moves
  | forgotten => exact (ended_disconnect w).moves
  | returned => exact .refl w

theorem moves_callSection (r : Rest) (w : Endpoint (Logged ρ) σ) :
    Moves none w (callSection r w).2 := by
  cases r with
  | body target => exact (seek_connectBody target w).moves
  | claim instant => exact (aside_claimPoll instant w).moves
  | ask => exact .refl w

omit [Radio ρ] [DeviceStore σ] in
theorem endpoint_check (r : Rest) (q : Callers ρ σ) : (q.check r).endpoint = q.endpoint := by
  unfold check
  split <;> rfl

omit [Radio ρ] [DeviceStore σ] in
theorem recorded_of_moves {e? : Option Event} {w w' : Endpoint (Logged ρ) σ}
    (hm : Moves e? w w') (h : ∃ es, Recorded es w.transport) :
    ∃ es, Recorded es w'.transport := by
  obtain ⟨es, hr⟩ := h
  obtain ⟨cs, -, hcs⟩ := hm
  exact ⟨_, hcs es hr⟩

/-- A history leads to every endpoint. -/
theorem recorded_move (h : ∃ es, Recorded es q.endpoint.transport) (m : Move ρ σ) :
    ∃ es, Recorded es (q.move m).endpoint.transport := by
  cases m with
  | connect target => rwa [move, endpoint_check]
  | poll instant => rwa [move, endpoint_check]
  | resume k =>
    cases hk : q.pending[k]? with
    | none => rwa [move_resume_none hk]
    | some r =>
      rw [move_resume hk]
      exact recorded_of_moves (moves_callSection r q.endpoint) h
  | stop => exact recorded_of_moves (moves_stopSection q.stopping q.endpoint) h
  | other s hs => exact recorded_of_moves (Turn.moves ⟨q.endpoint, s⟩) h

theorem running_callSection (r : Rest) (w : Endpoint (Logged ρ) σ) :
    (callSection r w).2.transport.running = w.transport.running := by
  cases r with
  | body target => exact (seek_connectBody target w).traffic.running
  | claim instant => exact (aside_claimPoll instant w).link.running
  | ask => rfl

theorem running_other {s : Step ρ σ} (hs : s.isControl = false) (w : Endpoint (Logged ρ) σ) :
    (w.step s.logged).transport.running = w.transport.running := by
  rcases Turn.running_after ⟨w, s⟩ with hstart | hstop | hsame
  · obtain rfl : s = .act .start := hstart
    cases hs
  · obtain rfl : s = .act .stop := hstop
    cases hs
  · exact hsame

omit [DeviceStore σ] in
theorem stopSection_ne_uncalled (st : Stopping) (w : Endpoint (Logged ρ) σ) :
    (stopSection st w).1 ≠ .uncalled := by
  cases st with
  | uncalled =>
    show (if w.halt.1 then Stopping.halted else .returned) ≠ .uncalled
    split <;> decide
  | _ => nofun

omit [DeviceStore σ] in
/-- The first section of a stop ends running. -/
theorem running_stopSection {st : Stopping} {w : Endpoint (Logged ρ) σ}
    (h : st ≠ .uncalled → w.transport.running = false) :
    (stopSection st w).2.transport.running = false := by
  cases st with
  | uncalled =>
    show w.halt.2.transport.running = false
    rw [halt]
    split
    · rfl
    · rename_i hstopped
      exact eq_false_of_ne_true hstopped
  | halted => exact h (by decide)
  | forgotten => exact (ended_disconnect w).intake.running.trans (h (by decide))
  | returned => exact h (by decide)

/-! ## Stopped endpoints -/

/-- A transport that is stopped, with no attempt and no link that is wanted. -/
structure Dormant (w : Endpoint (Logged ρ) σ) : Prop where
  recorded : ∃ es, Recorded es w.transport
  stopped : w.transport.running = false
  unwanted : w.transport.connection.isWanted = false

omit [Radio ρ] [DeviceStore σ] in
theorem Dormant.unwanting {w : Endpoint (Logged ρ) σ} (h : Dormant w) : Unwanting w.transport := by
  obtain ⟨es, hr⟩ := h.recorded
  exact ⟨h.unwanted, hr.unready h.unwanted, fun _ => h.stopped⟩

omit [DeviceStore σ] in
theorem Dormant.aside {w w' : Endpoint (Logged ρ) σ} (h : Dormant w) (ha : Aside w w') :
    Dormant w' where
  recorded := recorded_of_moves ha.moves h.recorded
  stopped := ha.link.running.trans h.stopped
  unwanted := ha.link.connection ▸ h.unwanted

/-- In a turn only a report on the link moves the connection of a dormant endpoint. -/
theorem Dormant.connection_after {t : Turn ρ σ} (h : Dormant t.before) :
    t.after.transport.connection = t.before.transport.connection ∨
      t.after.transport.connection = .disconnected := by
  obtain ⟨es, hr⟩ := h.recorded
  rw [connection_of_unwanted hr h.unwanting]
  split
  · exact .inr rfl
  · exact .inl rfl

theorem Dormant.other {w : Endpoint (Logged ρ) σ} (h : Dormant w) {s : Step ρ σ}
    (hs : s.isControl = false) : Dormant (w.step s.logged) where
  recorded := recorded_of_moves (Turn.moves ⟨w, s⟩) h.recorded
  stopped := (running_other hs w).trans h.stopped
  unwanted := by
    rcases Dormant.connection_after (t := ⟨w, s⟩) h with hsame | hnone
    · exact (congrArg Connection.isWanted hsame).trans h.unwanted
    · exact congrArg Connection.isWanted hnone

/-! ## Until the stop returns -/

/-- What holds at any time: the transport runs only before the stop, and if it did not run then,
nothing is under way. -/
structure Orderly (q : Callers ρ σ) : Prop where
  recorded : ∃ es, Recorded es q.endpoint.transport
  halted : q.stopping ≠ .uncalled → q.endpoint.transport.running = false
  still : q.stopping = .uncalled → q.endpoint.transport.running = false →
    q.pending = [] ∧ q.endpoint.transport.connection.isWanted = false

omit [Radio ρ] [DeviceStore σ] in
theorem Orderly.check (h : q.Orderly) (r : Rest) : (q.check r).Orderly := by
  cases hrun : q.endpoint.transport.running with
  | false =>
    rw [check_of_stopped hrun]
    exact h
  | true =>
    rw [check_of_running hrun]
    exact ⟨h.recorded, h.halted, fun _ hstopped => by simp [hrun] at hstopped⟩

theorem Orderly.resume (h : q.Orderly) (k : Nat) : (q.move (.resume k)).Orderly := by
  cases hk : q.pending[k]? with
  | none =>
    rw [move_resume_none hk]
    exact h
  | some r =>
    have hrun : (q.move (.resume k)).endpoint.transport.running =
        q.endpoint.transport.running := by
      rw [move_resume hk]
      exact running_callSection r q.endpoint
    have hst : (q.move (.resume k)).stopping = q.stopping := by rw [move_resume hk]
    refine ⟨recorded_move h.recorded _, fun hne => hrun.trans (h.halted (hst ▸ hne)), ?_⟩
    intro huncalled hstopped
    obtain ⟨hnone, -⟩ := h.still (hst ▸ huncalled) (hrun ▸ hstopped)
    simp [hnone] at hk

theorem Orderly.stop (h : q.Orderly) : (q.move .stop).Orderly where
  recorded := recorded_move h.recorded .stop
  halted _ := running_stopSection h.halted
  still huncalled := absurd huncalled (stopSection_ne_uncalled _ _)

theorem Orderly.move (h : q.Orderly) (m : Move ρ σ) : (q.move m).Orderly := by
  cases m with
  | connect target => exact h.check _
  | poll instant => exact h.check _
  | resume k => exact h.resume k
  | stop => exact h.stop
  | other s hs =>
    have hrun := running_other hs q.endpoint
    refine ⟨recorded_move h.recorded (.other s hs), fun hne => hrun.trans (h.halted hne), ?_⟩
    intro huncalled hstopped
    have hbefore := hrun.symm.trans hstopped
    obtain ⟨hnone, hunwanted⟩ := h.still huncalled hbefore
    exact ⟨hnone, (Dormant.other ⟨h.recorded, hbefore, hunwanted⟩ hs).unwanted⟩

theorem Orderly.run (h : q.Orderly) (ms : List (Move ρ σ)) : (q.run ms).Orderly := by
  induction ms generalizing q with
  | nil => exact h
  | cons m ms ih => exact ih (h.move m)

/-- A stop that returns leaves a dormant endpoint. -/
theorem Orderly.dormant (h : q.Orderly) (hbefore : q.stopping ≠ .returned)
    (hreturned : (q.move .stop).stopping = .returned) : Dormant (q.move .stop).endpoint := by
  refine ⟨h.stop.recorded, running_stopSection h.halted, ?_⟩
  obtain ⟨w, ps, st⟩ := q
  cases st with
  | uncalled =>
    cases hrun : w.transport.running with
    | true =>
      change (if w.halt.1 then Stopping.halted else .returned) = .returned at hreturned
      rw [halt, if_pos hrun] at hreturned
      cases hreturned
    | false =>
      show w.halt.2.transport.connection.isWanted = false
      rw [halt, if_neg (by simp [hrun])]
      exact (h.still rfl hrun).2
  | halted => cases hreturned
  | forgotten => exact (ended_disconnect w).unwanted.1
  | returned => exact absurd rfl hbefore

/-! ## After the stop returned -/

/-- The stop has returned and no call is past its last check. -/
structure Silent (q : Callers ρ σ) : Prop where
  dormant : Dormant q.endpoint
  returned : q.stopping = .returned
  checked : ∀ target, .body target ∉ q.pending

theorem blocked_of_aside {m : Move ρ σ} (h : Aside q.endpoint (q.move m).endpoint) :
    Blocked m q where
  unasked a ok hcall := by
    obtain ⟨cs, hlog, hcs⟩ := h.asks.log
    rw [calls, hlog, List.drop_left] at hcall
    cases hcs _ hcall
  phase := .inl (by rw [phase, h.link.connection, phase])

theorem blocked_of_same {m : Move ρ σ} (h : q.move m = q) : Blocked m q :=
  blocked_of_aside (by rw [h]; exact .refl _)

theorem blocked_other {s : Step ρ σ} {hs : s.isControl = false} (h : Dormant q.endpoint) :
    Blocked (.other s hs) q where
  unasked a ok hcall := by
    cases disengaged (t := ⟨q.endpoint, s⟩) h.unwanting _ hcall
  phase := (Dormant.connection_after (t := ⟨q.endpoint, s⟩) h).imp (congrArg Connection.phase)
    (congrArg Connection.phase)

/-- While the transport is stopped, a section other than a body leads to no body. -/
theorem aside_callSection {r : Rest} {w : Endpoint (Logged ρ) σ}
    (hstopped : w.transport.running = false) (hr : ∀ target, r ≠ .body target) :
    Aside w (callSection r w).2 ∧ ∀ target, (callSection r w).1 ≠ some (.body target) := by
  cases r with
  | body target => exact absurd rfl (hr target)
  | claim instant =>
    refine ⟨aside_claimPoll instant w, fun target => ?_⟩
    rcases hclaim : w.claimPoll instant with ⟨due, u⟩
    cases due <;> simp [callSection, hclaim]
  | ask => exact ⟨.refl w, fun target => by simp [callSection, hstopped]⟩

theorem Silent.resume (h : q.Silent) (k : Nat) :
    (q.move (.resume k)).Silent ∧ Blocked (.resume k) q := by
  cases hk : q.pending[k]? with
  | none =>
    have hsame := move_resume_none hk
    exact ⟨by rwa [hsame], blocked_of_same hsame⟩
  | some r =>
    have hmove := move_resume hk
    have hr : ∀ target, r ≠ .body target := by
      rintro target rfl
      exact h.checked target (List.mem_of_getElem? hk)
    obtain ⟨haside, hleft⟩ := aside_callSection h.dormant.stopped hr
    refine ⟨?_, blocked_of_aside (by rwa [hmove])⟩
    rw [hmove]
    refine ⟨h.dormant.aside haside, h.returned, fun target hbody => ?_⟩
    simp only [List.mem_append, Option.mem_toList] at hbody
    rcases hbody with (hbody | hbody) | hbody
    · exact h.checked target (List.mem_of_mem_take hbody)
    · exact hleft target hbody
    · exact h.checked target (List.mem_of_mem_drop hbody)

theorem Silent.move (h : q.Silent) (m : Move ρ σ) : (q.move m).Silent ∧ Blocked m q := by
  have same (hsame : q.move m = q) : (q.move m).Silent ∧ Blocked m q :=
    ⟨by rwa [hsame], blocked_of_same hsame⟩
  cases m with
  | connect target => exact same (check_of_stopped h.dormant.stopped _)
  | poll instant => exact same (check_of_stopped h.dormant.stopped _)
  | resume k => exact h.resume k
  | stop =>
    refine same ?_
    rw [Callers.move, h.returned]
    exact congrArg (Callers.mk q.endpoint q.pending) h.returned.symm
  | other s hs => exact ⟨⟨h.dormant.other hs, h.returned, h.checked⟩, blocked_other h.dormant⟩

theorem Silent.run (h : q.Silent) (ms : List (Move ρ σ)) : (q.run ms).Silent := by
  induction ms generalizing q with
  | nil => exact h
  | cons m ms ih => exact ih (h.move m).1

/-! ## A call past its check -/

theorem connection_linkDown {w : Endpoint (Logged ρ) σ}
    (h : w.transport.connection.isWanted = false) :
    (w.handle .linkDown).transport.connection = .disconnected := by
  have hdown := linkDownDone_onLinkDown w
  change w.onLinkDown.transport.connection = .disconnected
  generalize w.onLinkDown = w' at hdown ⊢
  cases hdown with
  | ignored hc => exact hc
  | failed p hc => simp [hc, Connection.isWanted] at h
  | _ => rfl

/-- With a target a connect that finds no link asks for an attempt. -/
theorem asked_connectBody {w : Endpoint (Logged ρ) σ} {d : Address}
    (hw : w.transport.connection = .disconnected) (hd : w.transport.policy.target = some d)
    (target : Option Address) :
    ∃ a ok, (w.connectBody target).radio.log = w.radio.log ++ [(.connect a, ok)] := by
  obtain ⟨a, hplan⟩ : ∃ a, planFor target w.transport = .target a := by
    cases target with
    | some a => exact ⟨a, rfl⟩
    | none => exact ⟨d, by simp [planFor, Reconnect.Policy.plan, Reconnect.Policy.mode, hd]⟩
  have hbody : w.connectBody target = tryCandidates [.persisted a] (w.queueing []) := by
    have hidle : ¬ w.transport.isBusy = true := by
      simp [Transport.isBusy, hw, Connection.isConnected, Connection.isConnecting]
    rw [connectBody, if_neg hidle]
    change ((w.queueing []).follow (planFor target w.transport)).attemptNext = _
    rw [hplan]
    exact tryCandidates_queueing _ _ _
  refine ⟨a, ((w.queueing []).attempt (.persisted a) []).1, ?_⟩
  rw [hbody, tryCandidates_cons (w := w.queueing []) hw]
  split <;> rfl

/-- Once the link is gone and a target is set, a connect past its check makes an attempt. -/
theorem comes_through (h : Dormant q.endpoint) {target : Option Address}
    (hbody : .body target ∈ q.pending) :
    ∃ (later : List (Move ρ σ)) (m : Move ρ σ), ¬ Blocked m (q.run later) := by
  obtain ⟨k, hk⟩ := List.getElem?_of_mem hbody
  let later : List (Move ρ σ) :=
    [.other (.act (.handle .linkDown)) rfl,
      .other (.act (.setTarget (some "00:00:00:00:00:0A"))) rfl]
  have hparse : Address.parse? "00:00:00:00:00:0A" = some ⟨0, 0, 0, 0, 0, 10⟩ := by decide
  obtain ⟨htarget, -, hsame⟩ := setTarget_some (q.endpoint.handle .linkDown) hparse
  have hdown := hsame.trans (connection_linkDown h.unwanted)
  obtain ⟨a, ok, hlog⟩ := asked_connectBody hdown htarget target
  refine ⟨later, .resume k, fun hblocked => hblocked.unasked a ok ?_⟩
  have hpending : (q.run later).pending[k]? = some (.body target) := hk
  have hcalls : (q.run later).calls (.resume k) = [(.connect a, ok)] := by
    rw [calls, move_resume hpending]
    exact (congrArg (List.drop _) hlog).trans List.drop_left
  simp [hcalls]

/-- Calls that are not under way yet at an endpoint. -/
def beside (w : Endpoint (Logged ρ) σ) : Callers ρ σ := { endpoint := w }

/-- At any moment of any run of a transport that was created, a stop goes along with any number of
connects, polls and other things, each cut into its sections, in any order. When the stop has
returned, no attempt is made any more and no connection begins or comes up, whatever goes on and
as long as nothing starts the transport, if and only if no connect is past its check at that
moment. -/
theorem stop_blocks_iff {s : LinkSettings} {target : Option String} {radio : Logged ρ} {store : σ}
    {w : Endpoint (Logged ρ) σ} (hw : create s target radio store = .ok w)
    (steps : List (Step ρ σ)) (before : List (Move ρ σ))
    (hstop : ((beside (w.runLogged steps)).run before).stopping ≠ .returned)
    (hreturned : (((beside (w.runLogged steps)).run before).move .stop).stopping = .returned) :
    let q := ((beside (w.runLogged steps)).run before).move .stop
    (∀ later m, Blocked m (q.run later)) ↔ ∀ target, .body target ∉ q.pending := by
  intro q
  have hreached : Reached s (w.runLogged steps) := reached_run (reached_create hw) steps
  have horderly : (beside (w.runLogged steps)).Orderly :=
    ⟨hreached.recorded, fun hne => absurd rfl hne, fun _ hrun => ⟨rfl, hreached.stopped hrun⟩⟩
  have hdormant : Dormant q.endpoint := (horderly.run before).dormant hstop hreturned
  constructor
  · intro hall target hbody
    obtain ⟨later, m, hcomes⟩ := comes_through hdormant hbody
    exact hcomes (hall later m)
  · intro hchecked later m
    have hsilent : q.Silent := ⟨hdormant, hreturned, hchecked⟩
    exact ((hsilent.run later).move m).2

/-- A link is up, and a poll has passed its check when the stop returns. -/
theorem stop_blocks_checked_poll :
    ∃ (w : Endpoint (Logged Radio.Simulated) Store.Memory)
      (steps : List (Step Radio.Simulated Store.Memory))
      (before : List (Move Radio.Simulated Store.Memory)),
      create {} none ⟨{}, []⟩ {} = .ok w ∧
      before = [.poll 0, .stop, .stop] ∧
      ((beside (w.runLogged steps)).run before).stopping ≠ .returned ∧
      let q := ((beside (w.runLogged steps)).run before).move .stop
      q.stopping = .returned ∧ q.pending = [.claim 0] ∧ q.phase = .connected ∧
        ∀ later m, Blocked m (q.run later) := by
  let radio : Logged Radio.Simulated := ⟨{}, []⟩
  let steps : List (Step Radio.Simulated Store.Memory) :=
    [.act .start, .act (.connect (some ⟨0, 0, 0, 0, 0, 11⟩)), .act .next]
  let before : List (Move Radio.Simulated Store.Memory) := [.poll 0, .stop, .stop]
  let w : Endpoint (Logged Radio.Simulated) Store.Memory := fresh {} none {} radio {}
  have hw : create {} none radio ({} : Store.Memory) = .ok w := rfl
  have hblocks := stop_blocks_iff hw steps before (by decide) (by decide)
  have hpending : (((beside (w.runLogged steps)).run before).move .stop).pending = [.claim 0] := by
    decide
  refine ⟨w, steps, before, hw, rfl, by decide, by decide, hpending, by decide, ?_⟩
  exact hblocks.2 fun target hbody => by simp [hpending] at hbody

/-- A connect has passed its check when a stop is called and returns. It goes on to attempt, and the
link comes up although the transport is stopped. -/
theorem connect_comes_through :
    ∃ w : Endpoint (Logged Radio.Simulated) Store.Memory,
      create {} none ⟨{}, []⟩ {} = .ok w ∧
      let q := (beside w.start).run [.connect (some ⟨0, 0, 0, 0, 0, 10⟩), .stop, .stop, .stop]
      q.stopping = .returned ∧ q.endpoint.transport.running = false ∧
        q.phase = .disconnected ∧
        q.calls (.resume 0) = [(.connect ⟨0, 0, 0, 0, 0, 10⟩, true)] ∧
        (q.move (.resume 0)).phase = .connecting ∧
        (q.run [.resume 0, .other (.act .next) rfl]).phase = .connected ∧
        (q.run [.resume 0, .other (.act .next) rfl]).endpoint.transport.running = false := by
  have hw : create {} none (⟨{}, []⟩ : Logged Radio.Simulated) ({} : Store.Memory) = .ok _ := rfl
  refine ⟨_, hw, ?_⟩
  decide

end Callers

end VehicleLink
