import VehicleLink.Proofs.Aside

/-!
# Attempts

What `connect`, `pollAt` and the fallback after a failed attempt do, said once. From a
disconnected state `tryCandidates` submits attempts in the order of the candidates until one is
taken up (`tryCandidates_cons`); everything about them follows by one induction.

* `attempted_tryCandidates`: the calls are attempts on candidates, the traffic stays, and at the
  end either no attempt is under way and nothing is queued, or the last candidate tried is
  attempted and those behind it are queued.
* `triedOut_tryCandidates`: which candidates were asked for and with what answers, over a radio that
  keeps a log.
* `seek_connect`, `seek_pollAt`: a connect or a poll leaves the link alone or is such a sequence
  of attempts on what was planned.
* `pollAt_of_due`, `pollAt_of_not_due`: a poll is a connect with its instant noted before it, or
  nothing.
-/

namespace VehicleLink.Endpoint

variable {ρ σ : Type} [Radio ρ] {w w' : Endpoint ρ σ}

/-! ## Trying candidates -/

omit [Radio ρ] in
def queueing (cs : List Candidate) (w : Endpoint ρ σ) : Endpoint ρ σ :=
  w.update fun t => { t with candidates := cs }

/-- Asks the radio for an attempt on `c`, with `rest` behind it. -/
def attempt (c : Candidate) (rest : List Candidate) (w : Endpoint ρ σ) : Bool × Endpoint ρ σ :=
  ((w.queueing rest).update fun t =>
    { t with tally := { t.tally with attempts := t.tally.attempts + 1 } }).submit
      (.connect c.address)

def takenUp (c : Candidate) (rest : List Candidate) (w : Endpoint ρ σ) : Endpoint ρ σ :=
  (w.attempt c rest).2.update fun t => { t with connection := .connecting c.address false }

def turnedAway (c : Candidate) (rest : List Candidate) (w : Endpoint ρ σ) : Endpoint ρ σ :=
  (w.attempt c rest).2.update (Transport.noteError (.connectFailed c.address))

theorem tryCandidates_nil (w : Endpoint ρ σ) : tryCandidates [] w = w.queueing [] := rfl

/-- From a disconnected state the first candidate is asked for, and the others only if the radio
turns it away. -/
theorem tryCandidates_cons (hw : w.transport.connection = .disconnected) (c : Candidate)
    (rest : List Candidate) :
    tryCandidates (c :: rest) w =
      if (w.attempt c rest).1 then w.takenUp c rest
      else tryCandidates rest (w.turnedAway c rest) := by
  have hphase : ¬ (w.queueing rest).transport.connection.phase ≠ .disconnected := by
    rw [queueing, update, hw]
    simp [Connection.phase]
  have hbegin : (w.attempt c rest).2.transport.connection.begin c.address =
      .ok (.connecting c.address false) := by
    show w.transport.connection.begin c.address = _
    rw [hw]
    rfl
  rw [tryCandidates]
  change (if (w.queueing rest).transport.connection.phase ≠ .disconnected then _ else _) = _
  rw [if_neg hphase]
  refine ite_congr rfl (fun _ => ?_) fun _ => rfl
  split
  · rename_i connection hok
    cases hok.symm.trans hbegin
    rfl
  · rename_i e herror
    cases herror.symm.trans hbegin

/-- What was queued before does not matter. -/
theorem tryCandidates_queueing (cs before : List Candidate) (w : Endpoint ρ σ) :
    tryCandidates cs (w.queueing before) = tryCandidates cs w := by
  cases cs <;> rfl

/-! ## What attempts do -/

/-- The radio took up an attempt on a candidate of `cs`: it is under way, those before it were
turned away and those behind it are queued. -/
structure TakenUp (cs : List Candidate) (w w' : Endpoint ρ σ) : Prop where
  split : ∃ refused c rest,
    cs = refused ++ c :: rest ∧ w'.transport.candidates = rest ∧
    w'.transport.connection = .connecting c.address false ∧
    ∃ u : Endpoint ρ σ, Asks (fun k => ∃ d ∈ refused, k = .connect d.address) w u ∧
      (u.submit (.connect c.address)).1 = true ∧ w'.air = (u.submit (.connect c.address)).2.air

structure AllRefused (w' : Endpoint ρ σ) : Prop where
  connection : w'.transport.connection = .disconnected
  candidates : w'.transport.candidates = []

structure Attempted (cs : List Candidate) (w w' : Endpoint ρ σ) : Prop where
  traffic : SameTraffic w.transport w'.transport
  now : w'.now = w.now
  asks : Asks (fun k => ∃ c ∈ cs, k = .connect c.address) w w'
  outcome : AllRefused w' ∨ TakenUp cs w w'

theorem asks_attempt (c : Candidate) (rest : List Candidate) (w : Endpoint ρ σ) :
    Asks (fun k => k = .connect c.address) w (w.attempt c rest).2 :=
  (Asks.of_air rfl).trans (.submit _ rfl)

theorem attempted_takenUp (c : Candidate) (rest : List Candidate)
    (h : (w.attempt c rest).1 = true) : Attempted (c :: rest) w (w.takenUp c rest) where
  traffic := {}
  now := rfl
  asks := ((asks_attempt c rest w).update _).mono fun _ hk => ⟨c, List.mem_cons_self, hk⟩
  outcome := .inr ⟨[], c, rest, rfl, rfl, rfl, w, .of_air rfl, h, rfl⟩

/-- After a candidate was turned away, what trying the others does is what trying all does. -/
theorem Attempted.cons {c : Candidate} {rest : List Candidate}
    (h : Attempted rest (w.turnedAway c rest) w') : Attempted (c :: rest) w w' where
  traffic := SameTraffic.trans {} h.traffic
  now := h.now
  asks :=
    (((asks_attempt c rest w).update _).mono fun _ hk => ⟨c, List.mem_cons_self, hk⟩).trans
      (h.asks.mono fun _ ⟨d, hd, hk⟩ => ⟨d, List.mem_cons_of_mem c hd, hk⟩)
  outcome := by
    rcases h.outcome with hnone | ⟨refused, d, later, hsplit, hcands, hconn, u, hu, hacc, hair⟩
    · exact .inl hnone
    · refine .inr ⟨c :: refused, d, later, by rw [hsplit]; rfl, hcands, hconn, u, ?_, hacc, hair⟩
      have hfirst : Asks (fun k => ∃ d ∈ c :: refused, k = .connect d.address) w
          (w.turnedAway c rest) :=
        ((asks_attempt c rest w).update _).mono fun _ hk => ⟨c, List.mem_cons_self, hk⟩
      exact hfirst.trans (hu.mono fun _ ⟨d, hd, hk⟩ => ⟨d, List.mem_cons_of_mem c hd, hk⟩)

theorem attempted_tryCandidates (cs : List Candidate)
    (hw : w.transport.connection = .disconnected) : Attempted cs w (tryCandidates cs w) := by
  induction cs generalizing w with
  | nil =>
    rw [tryCandidates_nil]
    exact ⟨{}, rfl, .of_air rfl, .inl ⟨hw, rfl⟩⟩
  | cons c rest ih =>
    rw [tryCandidates_cons hw]
    split
    · rename_i h
      exact attempted_takenUp c rest h
    · exact (ih (w := w.turnedAway c rest) hw).cons

/-! ## Attempts in a log -/

/-- What became of candidates that were tried from a disconnected state, with the addresses that the
radio was asked for and its answers: it turned all of them away, or took one up. -/
inductive TriedOut (cs : List Candidate) : List (Address × Bool) → Transport → Prop
  | refused {t : Transport} (connection : t.connection = .disconnected)
      (candidates : t.candidates = []) : TriedOut cs (cs.map fun c => (c.address, false)) t
  | takenUp {t : Transport} (refused : List Candidate) (c : Candidate)
      (split : cs = refused ++ c :: t.candidates)
      (connection : t.connection = .connecting c.address false) :
      TriedOut cs (refused.map (fun d => (d.address, false)) ++ [(c.address, true)]) t

theorem TriedOut.cons {cs : List Candidate} {asked : List (Address × Bool)} {t : Transport}
    (h : TriedOut cs asked t) (c : Candidate) :
    TriedOut (c :: cs) ((c.address, false) :: asked) t := by
  cases h with
  | refused connection candidates => exact .refused connection candidates
  | takenUp refused d split connection =>
    exact .takenUp (c :: refused) d (congrArg (c :: ·) split) connection

/-- The log of the radio goes on with the attempts, and their number is counted. -/
theorem triedOut_tryCandidates {w : Endpoint (Logged ρ) σ} (cs : List Candidate)
    (hw : w.transport.connection = .disconnected) :
    ∃ asked, TriedOut cs asked (tryCandidates cs w).transport ∧
      (tryCandidates cs w).radio.log = w.radio.log ++ asked.map (Prod.map Call.connect id) ∧
      (tryCandidates cs w).transport.tally.attempts =
        w.transport.tally.attempts + asked.length := by
  induction cs generalizing w with
  | nil => exact ⟨[], .refused hw rfl, (List.append_nil _).symm, rfl⟩
  | cons c rest ih =>
    have hlog : (w.attempt c rest).2.radio.log =
        w.radio.log ++ [(.connect c.address, (w.attempt c rest).1)] := rfl
    rw [tryCandidates_cons hw]
    split
    · rename_i htaken
      refine ⟨[(c.address, true)], .takenUp [] c rfl rfl, ?_, rfl⟩
      rw [htaken] at hlog
      exact hlog
    · rename_i hrefused
      obtain ⟨asked, htried, hlater, hcount⟩ := ih (w := w.turnedAway c rest) hw
      refine ⟨(c.address, false) :: asked, htried.cons c, ?_, ?_⟩
      · rw [eq_false_of_ne_true hrefused] at hlog
        rw [hlater]
        change (w.attempt c rest).2.radio.log ++ _ = _
        rw [hlog, List.append_assoc]
        rfl
      · rw [hcount, List.length_cons]
        change w.transport.tally.attempts + 1 + asked.length = _
        omega

/-! ## Connecting and polling -/

section Seek

variable [DeviceStore σ]

omit [DeviceStore σ] in
/-- The candidates of a plan. -/
def candidatesOf (plan : Reconnect.Plan) (w : Endpoint ρ σ) : List Candidate :=
  match plan with
  | .target a => [.persisted a]
  | .rank =>
    (Ranking.rank w.transport.settings.deviceName (Radio.bonded w.radio) w.transport.observed
      w.transport.devices).1
  | .idle => []

/-- A ranking leaves the link alone until its candidates are queued. -/
theorem rankCandidates_eq (w : Endpoint ρ σ) :
    ∃ u, Aside w u ∧ w.rankCandidates = u.queueing (w.candidatesOf .rank) := by
  rcases hr : Ranking.rank w.transport.settings.deviceName (Radio.bonded w.radio)
    w.transport.observed w.transport.devices with ⟨ranked, devices⟩
  let kept := w.update fun t => { t with devices }
  let saved := if devices ≠ w.transport.devices then kept.persist else kept
  let listed := saved.update fun t =>
    { t with discovered := ranked.foldl (fun m c => m.insert c.address c.text) t.discovered }
  have hkept : Aside w kept := .update _ {}
  have hsaved : Aside kept saved := by
    show Aside kept (if _ then _ else _)
    split
    · exact aside_persist kept
    · exact .refl kept
  have hlisted : Aside saved listed := .update _ {}
  have hscan : Aside listed
      (if ranked.isEmpty && !listed.transport.scanning then listed.beginScan else listed) := by
    split
    · exact aside_beginScan listed
    · exact .refl listed
  refine ⟨_, ((hkept.trans hsaved).trans hlisted).trans hscan, ?_⟩
  rw [rankCandidates, candidatesOf, hr]
  rfl

/-- What looking for a device does, with `target` as in `connect`. -/
inductive Seek (target : Option Address) (w : Endpoint ρ σ) : Endpoint ρ σ → Prop
  | idle {w' : Endpoint ρ σ} (h : Aside w w') : Seek target w w'
  | tries {u : Endpoint ρ σ} (cs : List Candidate)
      (hw : w.transport.connection = .disconnected) (hu : Aside (w.queueing []) u)
      (hcs : ∀ a, planFor target w.transport = .target a → cs = [.persisted a]) :
      Seek target w (tryCandidates cs u)

omit [Radio ρ] [DeviceStore σ] in
theorem disconnected_of_not_busy (h : ¬ w.transport.isBusy = true) :
    w.transport.connection = .disconnected := by
  unfold Transport.isBusy at h
  cases hc : w.transport.connection with
  | disconnected => rfl
  | connecting p t => rw [hc] at h; exact absurd rfl h
  | connected p r t => rw [hc] at h; exact absurd rfl h

/-- Following a plan leaves the link alone until its candidates are queued. -/
theorem follow_eq (plan : Reconnect.Plan) (w : Endpoint ρ σ) :
    ∃ u, Aside (w.queueing []) u ∧
      (w.queueing []).follow plan = u.queueing (w.candidatesOf plan) := by
  cases plan with
  | target a => exact ⟨w.queueing [], .refl _, rfl⟩
  | rank => exact rankCandidates_eq (w.queueing [])
  | idle => exact ⟨w.queueing [], .refl _, rfl⟩

theorem connectBody_of_busy (h : w.transport.isBusy = true) (target : Option Address) :
    w.connectBody target = w := if_pos h

theorem connectBody_of_disconnected (hw : w.transport.connection = .disconnected)
    (target : Option Address) :
    w.connectBody target = ((w.queueing []).follow (planFor target w.transport)).attemptNext := by
  have hidle : ¬ w.transport.isBusy = true := by
    rw [Transport.isBusy, hw]
    exact Bool.false_ne_true
  rw [connectBody, if_neg hidle]
  rfl

/-- From a disconnected state the candidates of the plan are tried. -/
theorem connectBody_eq (target : Option Address) (hw : w.transport.connection = .disconnected) :
    ∃ u, Aside (w.queueing []) u ∧ w.connectBody target =
      tryCandidates (w.candidatesOf (planFor target w.transport)) u := by
  obtain ⟨u, hu, heq⟩ := follow_eq (planFor target w.transport) w
  refine ⟨u, hu, ?_⟩
  rw [connectBody_of_disconnected hw, heq]
  exact tryCandidates_queueing _ _ u

theorem seek_connectBody (target : Option Address) (w : Endpoint ρ σ) :
    Seek target w (w.connectBody target) := by
  by_cases hbusy : w.transport.isBusy = true
  · rw [connectBody_of_busy hbusy]
    exact .idle (.refl w)
  · have hw := disconnected_of_not_busy hbusy
    obtain ⟨u, hu, heq⟩ := connectBody_eq target hw
    rw [heq]
    exact .tries _ hw hu fun a hplan => by rw [hplan, candidatesOf]

theorem connect_of_running (h : w.transport.running = true) (target : Option Address) :
    w.connect target = w.connectBody target := if_pos h

theorem connect_of_stopped (h : w.transport.running = false) (target : Option Address) :
    w.connect target = w := by
  rw [connect, if_neg (by simp [h])]

theorem pollAt_of_stopped (h : w.transport.running = false) (instant : Nanos) :
    w.pollAt instant = w := by
  rw [pollAt, if_neg (by simp [h])]

theorem seek_connect (target : Option Address) (w : Endpoint ρ σ) :
    Seek target w (w.connect target) := by
  unfold connect
  split
  · exact seek_connectBody target w
  · exact .idle (.refl w)

omit [DeviceStore σ] in
theorem Aside.queueing (h : Aside w w') (cs : List Candidate) :
    Aside (w.queueing cs) (w'.queueing cs) :=
  ⟨{ toSameTraffic := SameTraffic.trans {} (h.link.toSameTraffic.trans {})
     connection := h.link.connection, candidates := rfl, tally := h.link.tally },
    h.asks, h.now⟩

omit [DeviceStore σ] in
theorem Seek.of_aside {target : Option Address} {v : Endpoint ρ σ} (hv : Aside w v)
    (hplan : planFor target v.transport = planFor target w.transport) (h : Seek target v w') :
    Seek target w w' := by
  cases h with
  | idle h => exact .idle (hv.trans h)
  | tries cs hw hu hcs =>
    refine .tries cs (hv.link.connection ▸ hw) ((hv.queueing []).trans hu) ?_
    rw [← hplan]
    exact hcs

/-! ## Polling -/

omit [Radio ρ] [DeviceStore σ] in
/-- Whether a poll at an instant is due: the transport runs, is disconnected, and the interval
between attempts has passed. -/
def pollDue (instant : Nanos) (w : Endpoint ρ σ) : Bool :=
  w.transport.running && w.transport.connection = .disconnected &&
    w.transport.policy.isDue instant

omit [Radio ρ] [DeviceStore σ] in
theorem pollDue_iff {instant : Nanos} :
    w.pollDue instant = true ↔ w.transport.running = true ∧
      w.transport.connection = .disconnected ∧ w.transport.policy.isDue instant = true := by
  simp [pollDue, and_assoc]

/-- A poll that is due is a connect to what the policy says, with its instant noted before it. -/
theorem pollAt_of_due {instant : Nanos} (h : w.pollDue instant = true) :
    w.pollAt instant =
      (w.update fun t => { t with policy := t.policy.recordAttempt instant }).connect none := by
  obtain ⟨hrun, hw, hdue⟩ := pollDue_iff.1 h
  have hidle : ¬ w.transport.isBusy = true := by
    rw [Transport.isBusy, hw]
    exact Bool.false_ne_true
  rw [pollAt, if_pos hrun, claimPoll, if_neg hidle, if_pos hdue]
  rfl

/-- A poll that is not due does nothing. -/
theorem pollAt_of_not_due {instant : Nanos} (h : w.pollDue instant = false) :
    w.pollAt instant = w := by
  unfold pollAt
  split
  · rename_i hrun
    have hclaim : w.claimPoll instant = (false, w) := by
      unfold claimPoll
      split
      · rfl
      · rename_i hidle
        refine if_neg fun hdue => ?_
        rw [pollDue_iff.2 ⟨hrun, disconnected_of_not_busy hidle, hdue⟩] at h
        cases h
    rw [hclaim]
    rfl
  · rfl

/-- A poll that is due looks for what the policy says. -/
theorem seek_pollAt (instant : Nanos) (w : Endpoint ρ σ) : Seek none w (w.pollAt instant) := by
  cases h : w.pollDue instant with
  | true =>
    rw [pollAt_of_due h]
    exact (seek_connect none _).of_aside (.update _ {}) rfl
  | false =>
    rw [pollAt_of_not_due h]
    exact .idle (.refl w)

end Seek

end VehicleLink.Endpoint
