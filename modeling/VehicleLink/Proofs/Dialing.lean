import VehicleLink.Proofs.Cancellation
import VehicleLink.Proofs.RankingOrder

/-!
# What is tried

A connect, or a poll that is due, begins a plan if it finds the transport running and disconnected:
a list of addresses to try (`Endpoint.plan?`, `Endpoint.addresses`). All other operations make no
attempt and leave the one under way with its candidates, or give it up (`Passive`), except for the
report that an attempt which is still wanted has failed: then the queued candidates are tried.

`Turn.dialing` says this of every turn, with the attempts that the radio was asked for and its
answers. Each of them is counted.
-/

namespace VehicleLink

/-! ## Attempts among calls -/

/-- The attempts among some calls, each with its answer. -/
def attemptsIn (cs : List (Call × Bool)) : List (Address × Bool) :=
  cs.filterMap fun
    | (.connect a, accepted) => some (a, accepted)
    | _ => none

theorem attemptsIn_append (cs later : List (Call × Bool)) :
    attemptsIn (cs ++ later) = attemptsIn cs ++ attemptsIn later := List.filterMap_append

theorem attemptsIn_connects (asked : List (Address × Bool)) :
    attemptsIn (asked.map (Prod.map Call.connect id)) = asked := by
  induction asked with
  | nil => rfl
  | cons x asked ih => exact congrArg (x :: ·) ih

theorem attemptsIn_eq_nil {cs : List (Call × Bool)} (h : ∀ c ∈ cs, c.1.isConnect = false) :
    attemptsIn cs = [] := by
  refine List.filterMap_eq_nil_iff.2 fun c hc => ?_
  obtain ⟨k, accepted⟩ := c
  have hk := h _ hc
  cases k <;> first | rfl | cases hk

/-- The addresses that were turned away. -/
def refusedOf (asked : List (Address × Bool)) : List Address :=
  (asked.filter fun x => !x.2).map Prod.fst

theorem SamePhase.disconnected {c c' : Connection} (h : SamePhase c c')
    (hc : c = .disconnected) : c' = .disconnected := by
  have hphase := h.phase
  subst hc
  cases c' <;> first | rfl | cases hphase

theorem Warrant.no_connect {t : Transport} {e : Event} {c : Call} (h : Warrant t (some e) c)
    (he : e ≠ .linkDown) : c.isConnect = false := by
  cases h with
  | scan hc => exact Endpoint.no_connect_of_scan c hc
  | fallback => exact absurd rfl he
  | _ => rfl

namespace Endpoint

variable {ρ σ : Type} [Radio ρ] {w w' : Endpoint ρ σ}

/-! ## Plans -/

/-- The addresses to try for a connection to one address, or else to the one that is configured.
With neither the ranked candidates are tried, or, if none are to be ranked, the device that was
connected last. -/
def addresses (target : Option Address) (w : Endpoint ρ σ) : List Address :=
  match target.or w.transport.policy.target with
  | some a => [a]
  | none =>
    if w.transport.policy.automatic then
      (Ranking.rank w.transport.settings.deviceName (Radio.bonded w.radio) w.transport.observed
        w.transport.devices).1.map Candidate.address
    else w.transport.devices.lastConnected.toList

/-- The addresses that an action begins to try, if it begins anything. -/
def plan? (a : Action) (w : Endpoint ρ σ) : Option (List Address) :=
  if w.transport.running ∧ w.transport.connection = .disconnected then
    match a with
    | .connect target => some (w.addresses target)
    | .pollAt instant =>
      if w.transport.policy.isDue instant then some (w.addresses none) else none
    | _ => none
  else none

theorem map_candidatesOf (target : Option Address) (w : Endpoint ρ σ) :
    (w.candidatesOf (planFor target w.transport)).map Candidate.address = w.addresses target := by
  unfold planFor addresses
  cases target with
  | some a => rfl
  | none =>
    unfold Reconnect.Policy.plan Reconnect.Policy.mode
    cases w.transport.policy.target with
    | some d => rfl
    | none =>
      cases w.transport.policy.automatic with
      | true => rfl
      | false => cases w.transport.devices.lastConnected <;> rfl

/-- No address is planned twice. -/
theorem nodup_addresses (target : Option Address) (w : Endpoint ρ σ) :
    (w.addresses target).Nodup := by
  unfold addresses
  split
  · exact List.nodup_singleton _
  · split
    · exact Ranking.isRanking_order.distinct
    · cases w.transport.devices.lastConnected with
      | none => exact List.nodup_nil
      | some a => exact List.nodup_singleton a

theorem plan?_cases {a : Action} {plan : List Address} (h : w.plan? a = some plan) :
    w.transport.running = true ∧ w.transport.connection = .disconnected ∧
      ((∃ target, a = .connect target ∧ plan = w.addresses target) ∨
        ∃ instant, a = .pollAt instant ∧ w.transport.policy.isDue instant = true ∧
          plan = w.addresses none) := by
  unfold plan? at h
  split at h
  · rename_i hidle
    refine ⟨hidle.1, hidle.2, ?_⟩
    split at h
    · exact .inl ⟨_, rfl, (Option.some.inj h).symm⟩
    · split at h
      · rename_i hdue
        exact .inr ⟨_, rfl, hdue, (Option.some.inj h).symm⟩
      · cases h
    · cases h
  · cases h

theorem nodup_plan {a : Action} {plan : List Address} (h : w.plan? a = some plan) :
    plan.Nodup := by
  obtain ⟨-, -, ⟨target, -, rfl⟩ | ⟨instant, -, -, rfl⟩⟩ := plan?_cases h
  · exact nodup_addresses target w
  · exact nodup_addresses none w

/-! ## Operations that try nothing -/

theorem attempts_drain (w : Endpoint ρ σ) :
    w.drain.2.transport.tally.attempts = w.transport.tally.attempts := by
  rw [drain_eq]
  split
  · split
    · unfold send
      dsimp only
      split <;> rfl
    · rfl
  · rfl

theorem attempts_write (bytes : List UInt8) (w : Endpoint ρ σ) :
    (w.write bytes).2.transport.tally.attempts = w.transport.tally.attempts := by
  have h := answered_write bytes w
  generalize (w.write bytes).1 = ok, (w.write bytes).2 = w' at h ⊢
  cases h with
  | accepted => exact attempts_drain _
  | _ => rfl

theorem attempts_disconnect (w : Endpoint ρ σ) :
    w.disconnect.transport.tally.attempts = w.transport.tally.attempts := by
  unfold disconnect
  dsimp only
  split <;> rfl

theorem attempts_onServicesDiscovered (success : Bool) (w : Endpoint ρ σ) :
    (w.onServicesDiscovered success).transport.tally.attempts = w.transport.tally.attempts := by
  unfold onServicesDiscovered
  dsimp only
  split
  · rfl
  · split
    · split
      · exact attempts_drain _
      · rfl
    · rfl

theorem attempts_onWriteComplete (success : Bool) (w : Endpoint ρ σ) :
    (w.onWriteComplete success).transport.tally.attempts = w.transport.tally.attempts := by
  unfold onWriteComplete
  dsimp only
  split
  · rfl
  · split
    · exact attempts_drain _
    · rfl
  · rfl

theorem attempts_onLinkUp [DeviceStore σ] (w : Endpoint ρ σ) :
    w.onLinkUp.transport.tally.attempts = w.transport.tally.attempts := by
  have hscan (v : Endpoint ρ σ) :
      v.endScan.transport.tally.attempts = v.transport.tally.attempts :=
    congrArg Tally.attempts (aside_endScan v).link.tally
  unfold onLinkUp
  split
  · rfl
  · dsimp only
    split
    · unfold onEstablished
      dsimp only
      split <;> split <;> exact (hscan _).trans rfl
    · rfl

omit [Radio ρ] in
/-- What is left of an attempt or a link when no attempt is made: the attempt goes on with the same
candidates behind it, or it is not wanted any more; a link that is up was up before or comes of the
attempt. -/
structure Lingers (t t' : Transport) : Prop where
  going : ∀ p, t'.connection = .connecting p false →
    t.connection = .connecting p false ∧ t'.candidates = t.candidates
  up : ∀ p r d, t'.connection = .connected p r d →
    t.connection.isConnected = true ∧ t.connection.peer? = some p ∨
      t.connection = .connecting p false
  idle : t.connection = .disconnected → t'.connection = .disconnected

theorem Lingers.trans {t t' t'' : Transport} (h₁ : Lingers t t') (h₂ : Lingers t' t'') :
    Lingers t t'' where
  going p hp := by
    obtain ⟨hp', hlater⟩ := h₂.going p hp
    obtain ⟨hfirst, hbefore⟩ := h₁.going p hp'
    exact ⟨hfirst, hlater.trans hbefore⟩
  up p r d hp := by
    rcases h₂.up p r d hp with ⟨hup, hpeer⟩ | hattempt
    · cases hc : t'.connection with
      | connected q ready teardown =>
        rw [hc] at hpeer
        cases hpeer
        exact h₁.up p ready teardown hc
      | _ => simp [hc, Connection.isConnected] at hup
    · exact .inr (h₁.going p hattempt).1
  idle h := h₂.idle (h₁.idle h)

theorem Lingers.of_same {t t' : Transport} (connection : t'.connection = t.connection)
    (candidates : t'.candidates = t.candidates) : Lingers t t' where
  going _ hp := ⟨connection ▸ hp, candidates⟩
  up _ _ _ hp := .inl (by rw [← connection, hp]; exact ⟨rfl, rfl⟩)
  idle h := connection.trans h

theorem Lingers.of_phase {t t' : Transport} (h : SamePhase t.connection t'.connection)
    (unwanted : ∀ p, t'.connection ≠ .connecting p false) : Lingers t t' where
  going p hp := absurd hp (unwanted p)
  up _ _ _ hp := .inl (by rw [← h.isConnected, ← h.peer, hp]; exact ⟨rfl, rfl⟩)
  idle h' := h.disconnected h'

/-- No attempt is made. -/
structure Passive (w w' : Endpoint ρ σ) : Prop where
  asks : Asks (fun c => c.isConnect = false) w w'
  attempts : w'.transport.tally.attempts = w.transport.tally.attempts
  lingers : Lingers w.transport w'.transport

theorem Passive.trans {w'' : Endpoint ρ σ} (h₁ : Passive w w') (h₂ : Passive w' w'') :
    Passive w w'' :=
  ⟨h₁.asks.trans h₂.asks, h₂.attempts.trans h₁.attempts, h₁.lingers.trans h₂.lingers⟩

theorem Passive.of_same (asks : Asks (fun c => c.isConnect = false) w w')
    (attempts : w'.transport.tally.attempts = w.transport.tally.attempts)
    (connection : w'.transport.connection = w.transport.connection)
    (candidates : w'.transport.candidates = w.transport.candidates) : Passive w w' :=
  ⟨asks, attempts, .of_same connection candidates⟩

theorem Passive.of_calm (h : Calm w w')
    (attempts : w'.transport.tally.attempts = w.transport.tally.attempts)
    (unwanted : ∀ p, w'.transport.connection ≠ .connecting p false) : Passive w w' :=
  ⟨h.asks, attempts, .of_phase h.connection unwanted⟩

theorem Aside.passive (h : Aside w w') : Passive w w' :=
  .of_same (h.asks.mono no_connect_of_scan) (congrArg Tally.attempts h.link.tally)
    h.link.connection h.link.candidates

theorem passive_drain (w : Endpoint ρ σ) : Passive w w.drain.2 :=
  have h := drained_drain w
  .of_same h.calm.asks (attempts_drain w) h.course.connection h.course.candidates

theorem passive_write (bytes : List UInt8) (w : Endpoint ρ σ) : Passive w (w.write bytes).2 :=
  have h := written_write bytes w
  .of_same h.calm.asks (attempts_write bytes w) h.course.connection h.course.candidates

theorem passive_onWriteComplete (success : Bool) (w : Endpoint ρ σ) :
    Passive w (w.onWriteComplete success) :=
  have h := completedDone_onWriteComplete success w
  .of_same h.calm.asks (attempts_onWriteComplete success w) h.course.connection
    h.course.candidates

theorem not_connecting_of_unwanted {c : Connection} (h : c.isWanted = false) (p : Address) :
    c ≠ .connecting p false := by
  rintro rfl
  cases h

theorem passive_onServicesDiscovered (success : Bool) (w : Endpoint ρ σ) :
    Passive w (w.onServicesDiscovered success) := by
  have h := discoveredDone_onServicesDiscovered success w
  by_cases hup : w.transport.connection.isConnected = true
  · refine .of_calm h.calm (attempts_onServicesDiscovered success w) fun p hp => ?_
    have hstill := h.calm.connection.isConnected
    rw [hup, hp] at hstill
    cases hstill
  · have hsame : w.onServicesDiscovered success = w := by
      rw [onServicesDiscovered, if_pos (by simp [hup])]
    rw [hsame]
    exact .of_same (.of_air rfl) rfl rfl rfl

theorem passive_disconnect (w : Endpoint ρ σ) : Passive w w.disconnect := by
  have h := ended_disconnect w
  exact .of_calm h.calm (attempts_disconnect w) (not_connecting_of_unwanted h.unwanted.1)

theorem passive_stop (w : Endpoint ρ σ) : Passive w w.stop := by
  rcases stop_cases w with heq | ⟨u, hu, heq⟩
  · rw [heq]
    exact .of_same (.of_air rfl) rfl rfl rfl
  · rw [heq]
    have hhalted : Passive w w.halted := .of_same (.of_air rfl) rfl rfl rfl
    exact (hhalted.trans hu.passive).trans (passive_disconnect u)

variable [DeviceStore σ]

theorem lingers_onLinkUp (w : Endpoint ρ σ) : Lingers w.transport w.onLinkUp.transport := by
  have h := linkUpDone_onLinkUp w
  generalize w.onLinkUp = w' at h ⊢
  cases h with
  | unexpected => exact .of_same rfl rfl
  | cancelled p hc traffic connection =>
    refine ⟨fun q hq => ?_, fun q r d hq => ?_, fun _ => connection⟩
    · cases connection.symm.trans hq
    · cases connection.symm.trans hq
  | @kept u p hc opened =>
    have connection : u.transport.connection = .connected p false false := opened.connection
    refine ⟨fun q hq => ?_, fun q r d hq => ?_, fun h => ?_⟩
    · cases connection.symm.trans hq
    · cases connection.symm.trans hq
      exact .inr hc
    · cases hc.symm.trans h
  | dropped p hc opened refused dropped =>
    refine ⟨fun q hq => ?_, fun q r d hq => ?_, fun h => ?_⟩
    · cases dropped.connection.symm.trans hq
    · cases dropped.connection.symm.trans hq
      exact .inr hc
    · cases hc.symm.trans h

theorem passive_onLinkUp (w : Endpoint ρ σ) : Passive w w.onLinkUp where
  asks := (warranted_linkUp w).mono fun _ hc => hc.no_connect nofun
  attempts := attempts_onLinkUp w
  lingers := lingers_onLinkUp w

theorem passive_onLinkDown (h : ∀ p, w.transport.connection ≠ .connecting p false) :
    Passive w w.onLinkDown := by
  have hdown := linkDownDone_onLinkDown w
  generalize w.onLinkDown = w' at hdown ⊢
  cases hdown with
  | ignored => exact .of_same (.of_air rfl) rfl rfl rfl
  | failed p hp => exact absurd hp (h p)
  | _ => exact ⟨.of_air rfl, rfl, nofun, nofun, fun _ => rfl⟩

/-- A report makes no attempt unless an attempt that is still wanted is reported down. -/
theorem passive_handle (e : Event)
    (h : e = .linkDown → ∀ p, w.transport.connection ≠ .connecting p false) :
    Passive w (w.handle e) := by
  cases e with
  | scanResult d => exact (aside_onScanResult d w).passive
  | scanComplete => exact (aside_onScanComplete w).passive
  | linkUp => exact passive_onLinkUp w
  | linkDown => exact passive_onLinkDown (h rfl)
  | servicesDiscovered success => exact passive_onServicesDiscovered success w
  | writeComplete success => exact passive_onWriteComplete success w
  | received fragment =>
    obtain ⟨inbound, heq⟩ := onReceived_eq fragment w
    rw [handle, heq]
    exact .of_same (.of_air rfl) rfl rfl rfl

theorem passive_connect {target : Option Address} (h : w.plan? (.connect target) = none) :
    Passive w (w.connect target) := by
  by_cases hidle : w.transport.running ∧ w.transport.connection = .disconnected
  · simp [plan?, hidle] at h
  · have hsame : w.connect target = w := by
      unfold connect connectBody
      split
      · rename_i hrun
        rw [if_pos]
        by_contra hbusy
        exact hidle ⟨hrun, disconnected_of_not_busy hbusy⟩
      · rfl
    rw [hsame]
    exact .of_same (.of_air rfl) rfl rfl rfl

theorem passive_pollAt {instant : Nanos} (h : w.plan? (.pollAt instant) = none) :
    Passive w (w.pollAt instant) := by
  have hwaits : w.pollDue instant = false := by
    refine eq_false_of_ne_true fun hdue => ?_
    obtain ⟨hrun, hw, hnow⟩ := pollDue_iff.1 hdue
    simp [plan?, hrun, hw, hnow] at h
  rw [pollAt_of_not_due hwaits]
  exact .of_same (.of_air rfl) rfl rfl rfl

/-- An action without a plan makes no attempt. -/
theorem passive_act {a : Action} (ha : a.byConsumer = true) (h : w.plan? a = none) :
    Passive w (w.act a) := by
  cases a with
  | start => exact .of_same (.of_air rfl) rfl rfl rfl
  | stop => exact passive_stop w
  | connect target => exact passive_connect h
  | disconnect => exact passive_disconnect w
  | pollAt instant => exact passive_pollAt h
  | startScan => exact (aside_beginScan w).passive
  | write bytes => exact passive_write bytes w
  | read n =>
    obtain ⟨inbound, heq⟩ := read_eq n w
    rw [act, heq]
    exact .of_same (.of_air rfl) rfl rfl rfl
  | setTarget target =>
    obtain ⟨policy, heq⟩ := setTarget_eq target w
    rw [act, heq]
    exact .of_same (.of_air rfl) rfl rfl rfl
  | drainDue => exact passive_drain w
  | wait d => exact .of_same (.of_air rfl) rfl rfl rfl
  | handle e => cases ha
  | next => cases ha
  | raise e => cases ha

/-! ## What is asked for -/

section

variable {w w' u : Endpoint (Logged ρ) σ} {asked : List (Address × Bool)}

/-- From the first endpoint to the second the radio was asked for these attempts, and they were
counted. -/
structure Dials (asked : List (Address × Bool)) (w w' : Endpoint (Logged ρ) σ) : Prop where
  calls : ∃ cs, w'.radio.log = w.radio.log ++ cs ∧ attemptsIn cs = asked
  attempts : w'.transport.tally.attempts = w.transport.tally.attempts + asked.length

omit [DeviceStore σ] in
theorem Passive.dials (h : Passive w w') : Dials [] w w' := by
  obtain ⟨cs, hlog, hcs⟩ := h.asks.log
  exact ⟨⟨cs, hlog, attemptsIn_eq_nil hcs⟩, h.attempts⟩

omit [DeviceStore σ] in
theorem Passive.before_dials (h : Passive w u) (hu : Dials asked u w') : Dials asked w w' := by
  obtain ⟨cs, hlog, hcs⟩ := h.asks.log
  obtain ⟨later, hlater, hasked⟩ := hu.calls
  refine ⟨⟨cs ++ later, ?_, ?_⟩, ?_⟩
  · rw [hlater, hlog, List.append_assoc]
  · rw [attemptsIn_append, attemptsIn_eq_nil hcs, hasked, List.nil_append]
  · rw [hu.attempts, h.attempts]

omit [DeviceStore σ] in
theorem dials_tryCandidates (cs : List Candidate) (hw : w.transport.connection = .disconnected) :
    ∃ asked, TriedOut cs asked (tryCandidates cs w).transport ∧
      Dials asked w (tryCandidates cs w) := by
  obtain ⟨asked, htried, hlog, hcount⟩ := triedOut_tryCandidates cs hw
  exact ⟨asked, htried, ⟨_, hlog, attemptsIn_connects asked⟩, hcount⟩

/-- The candidates of a plan that begins are tried. -/
theorem dials_connect {target : Option Address} (hrun : w.transport.running = true)
    (hw : w.transport.connection = .disconnected) :
    ∃ cs asked, cs.map Candidate.address = w.addresses target ∧
      TriedOut cs asked (w.connect target).transport ∧ Dials asked w (w.connect target) := by
  obtain ⟨u, hu, heq⟩ := connectBody_eq target hw
  have hcleared : Passive w (w.queueing []) :=
    ⟨.of_air rfl, rfl, .of_phase (.of_eq rfl) fun p hp => absurd (hw.symm.trans hp) nofun⟩
  obtain ⟨asked, htried, hdials⟩ :=
    dials_tryCandidates (w := u) (w.candidatesOf (planFor target w.transport))
      (hu.link.connection.trans hw)
  refine ⟨_, asked, map_candidatesOf target w, ?_, ?_⟩
  · rw [connect_of_running hrun, heq]
    exact htried
  · rw [connect_of_running hrun, heq]
    exact (hcleared.trans hu.passive).before_dials hdials

/-- After an attempt that is still wanted has failed the queued candidates are tried. -/
theorem dials_onLinkDown {p : Address} (hp : w.transport.connection = .connecting p false) :
    ∃ asked, TriedOut w.transport.candidates asked w.onLinkDown.transport ∧
      Dials asked w w.onLinkDown := by
  let v := w.gone.update (Transport.noteError (.connectFailed p))
  have hv : Passive w v :=
    ⟨.of_air rfl, rfl, nofun, nofun, fun h => absurd (hp.symm.trans h) nofun⟩
  have hdown : w.onLinkDown = tryCandidates w.transport.candidates v := by
    rw [onLinkDown, hp]
    rfl
  obtain ⟨asked, htried, hdials⟩ := dials_tryCandidates (w := v) w.transport.candidates rfl
  rw [hdown]
  exact ⟨asked, htried, hv.before_dials hdials⟩

theorem dials_act {a : Action} {plan : List Address} (h : w.plan? a = some plan) :
    ∃ cs asked, cs.map Candidate.address = plan ∧
      TriedOut cs asked (w.act a).transport ∧ Dials asked w (w.act a) := by
  obtain ⟨hrun, hw, ⟨target, rfl, rfl⟩ | ⟨instant, rfl, hdue, rfl⟩⟩ := plan?_cases h
  · exact dials_connect hrun hw
  · let claimed := w.update fun t => { t with policy := t.policy.recordAttempt instant }
    have hclaimed : Passive w claimed := .of_same (.of_air rfl) rfl rfl rfl
    have hpoll : w.act (.pollAt instant) = claimed.connect none :=
      pollAt_of_due (pollDue_iff.2 ⟨hrun, hw, hdue⟩)
    obtain ⟨cs, asked, hcs, htried, hdials⟩ := dials_connect (w := claimed) hrun hw
    rw [hpoll]
    exact ⟨cs, asked, hcs, htried, hclaimed.before_dials hdials⟩

end

end Endpoint

/-! ## Turns -/

namespace Turn

open Endpoint

variable {ρ σ : Type} [Radio ρ] [DeviceStore σ] {t : Turn ρ σ}

/-- The attempts that the turn asked the radio for, each with the answer. -/
def asked (t : Turn ρ σ) : List (Address × Bool) := attemptsIn t.calls

omit [DeviceStore σ] in
/-- The addresses that the turn begins to try, if it begins a plan. -/
def plan? (t : Turn ρ σ) : Option (List Address) :=
  match t.step with
  | .act a => t.before.plan? a
  | _ => none

omit [Radio ρ] [DeviceStore σ] in
/-- The address of an attempt that was still wanted and that the turn hears is down. -/
def reported? (t : Turn ρ σ) : Option Address :=
  match t.event?, t.before.transport.connection with
  | some .linkDown, .connecting p false => some p
  | _, _ => none

/-- The addresses that failed in the turn. -/
def failed (t : Turn ρ σ) : List Address := t.reported?.toList ++ refusedOf t.asked

/-- The turn establishes a link, or a consumer gives up the link and all attempts. -/
def Concludes (t : Turn ρ σ) : Prop :=
  t.establishes = true ∨ t.step = .act .disconnect ∨ t.step = .act .stop

/-- What a turn tries. -/
inductive Dialing (t : Turn ρ σ) : Prop
  | plans (plan : List Address) (cs : List Candidate) (planned : t.plan? = some plan)
      (addresses : cs.map Candidate.address = plan) (reported : t.reported? = none)
      (tried : TriedOut cs t.asked t.after.transport)
  | fallsBack (p : Address) (planned : t.plan? = none) (reported : t.reported? = some p)
      (connection : t.before.transport.connection = .connecting p false)
      (tried : TriedOut t.before.transport.candidates t.asked t.after.transport)
  | passes (planned : t.plan? = none) (reported : t.reported? = none) (asked : t.asked = [])
      (lingers : Lingers t.before.transport t.after.transport)

theorem asked_of_dials {asked : List (Address × Bool)} (h : Dials asked t.before t.after) :
    t.asked = asked := by
  obtain ⟨cs, hlog, hcs⟩ := h.calls
  rw [Turn.asked, calls_of_log hlog, hcs]

omit [DeviceStore σ] in
theorem act_of_plan {plan : List Address} (h : t.plan? = some plan) :
    ∃ a, t.step = .act a ∧ t.before.plan? a = some plan := by
  unfold plan? at h
  split at h
  · exact ⟨_, by assumption, h⟩
  · cases h

omit [DeviceStore σ] in
theorem plan?_of_idle (h : ∀ a, t.step = .act a → a.byConsumer = false) : t.plan? = none := by
  refine Option.eq_none_iff_forall_not_mem.2 fun plan hplan => ?_
  obtain ⟨a, ha, hbegins⟩ := act_of_plan hplan
  obtain ⟨-, -, ⟨target, rfl, -⟩ | ⟨instant, rfl, -, -⟩⟩ := plan?_cases hbegins
  · cases h _ ha
  · cases h _ ha

omit [Radio ρ] [DeviceStore σ] in
theorem reported?_of_no_event (h : t.event? = none) : t.reported? = none := by
  rw [reported?, h]

omit [Radio ρ] [DeviceStore σ] in
theorem reported?_eq_some {p : Address} : t.reported? = some p ↔
    t.event? = some .linkDown ∧ t.before.transport.connection = .connecting p false := by
  unfold reported?
  split
  · rename_i q hevent hconn
    simp [hevent, hconn]
  · rename_i hno
    simp only [reduceCtorEq, false_iff, not_and]
    exact fun hevent hconn => hno p hevent hconn

theorem dialing_of_passive (h : Passive t.before t.after) (planned : t.plan? = none)
    (reported : t.reported? = none) : t.Dialing ∧ Dials t.asked t.before t.after := by
  have hasked := asked_of_dials h.dials
  refine ⟨.passes planned reported hasked h.lingers, ?_⟩
  rw [hasked]
  exact h.dials

/-- A turn tries a plan of its own, falls back on the queued candidates, or tries nothing. -/
theorem dialing (t : Turn ρ σ) : t.Dialing ∧ Dials t.asked t.before t.after := by
  cases t.kind with
  | still idle event transport log =>
    have hdials : Dials [] t.before t.after :=
      ⟨⟨[], by simp [log], rfl⟩, by rw [transport]; rfl⟩
    have hasked := asked_of_dials hdials
    refine ⟨.passes (plan?_of_idle idle) (reported?_of_no_event event) hasked ?_, ?_⟩
    · rw [transport]
      exact .of_same rfl rfl
    · rw [hasked]
      exact hdials
  | acts a ha hstep =>
    have hreported := reported?_of_no_event (event?_of_consumer ha hstep)
    have hplan : t.plan? = t.before.plan? a := by rw [plan?, hstep]
    have hafter := after_of_step hstep
    cases hbegins : t.before.plan? a with
    | none =>
      refine dialing_of_passive ?_ (hplan.trans hbegins) hreported
      rw [hafter]
      exact passive_act ha hbegins
    | some plan =>
      obtain ⟨cs, asked, hcs, htried, hdials⟩ := dials_act hbegins
      rw [← hafter] at htried hdials
      obtain rfl := asked_of_dials hdials
      exact ⟨.plans plan cs (hplan.trans hbegins) hcs hreported htried, hdials⟩
  | handles e w idle event transport radio after =>
    have hplan := plan?_of_idle idle
    have hbefore {asked : List (Address × Bool)} (h : Dials asked w t.after) :
        Dials asked t.before t.after := by
      obtain ⟨⟨cs, hlog, hcs⟩, hcount⟩ := h
      rw [radio] at hlog
      rw [transport] at hcount
      exact ⟨⟨cs, hlog, hcs⟩, hcount⟩
    by_cases hfails : e = .linkDown ∧ ∃ p, w.transport.connection = .connecting p false
    · obtain ⟨rfl, p, hp⟩ := hfails
      obtain ⟨asked, htried, hdials⟩ := dials_onLinkDown hp
      rw [show w.onLinkDown = t.after from after.symm] at htried hdials
      have hall := hbefore hdials
      obtain rfl := asked_of_dials hall
      rw [transport] at hp htried
      exact ⟨.fallsBack p hplan (reported?_eq_some.2 ⟨event, hp⟩) hp htried, hall⟩
    · have hpassive : Passive w t.after := by
        rw [after]
        exact passive_handle e fun he p hp => hfails ⟨he, p, hp⟩
      have hdials := hbefore hpassive.dials
      have hasked := asked_of_dials hdials
      refine ⟨.passes hplan ?_ hasked (transport ▸ hpassive.lingers), ?_⟩
      · refine Option.eq_none_iff_forall_not_mem.2 fun p hp => hfails ?_
        obtain ⟨he, hconn⟩ := reported?_eq_some.1 hp
        exact ⟨Option.some.inj (event.symm.trans he), p, transport ▸ hconn⟩
      · rw [hasked]
        exact hdials

end Turn

end VehicleLink
