import VehicleLink.Proofs.Turns

/-!
# What is known of the devices around

The remembered devices and the store that keeps them, the devices that the last scan saw, a summary
of every device ever seen, and whether a scan is under way: the surroundings of a transport change
by scans and their reports, by rankings, and by links that come up. Everything else leaves them, and
neither asks for a scan nor stops one (`Beside`).

* `looks_act`: what the actions of a consumer do to the surroundings. A ranking is the only thing
  that uses them, and `ranks` tells which actions make one.
* `beside_handle`, `greeted_onLinkUp`: what the reports on the link do to them.
-/

namespace VehicleLink

/-- What is known of the devices around, and whether a scan looks for others. -/
structure Surroundings (σ : Type) where
  devices : DeviceSet
  store : σ
  observed : List Device
  discovered : AddressMap String
  scanning : Bool

namespace Endpoint

variable {ρ σ : Type}

def surroundings (w : Endpoint ρ σ) : Surroundings σ where
  devices := w.transport.devices
  store := w.store
  observed := w.transport.observed
  discovered := w.transport.discovered
  scanning := w.transport.scanning

/-! ## Operations beside the surroundings -/

section

variable [Radio ρ] {w w' w'' : Endpoint ρ σ}

/-- The surroundings stay, and no call is about a scan. -/
structure Beside (w w' : Endpoint ρ σ) : Prop where
  surroundings : w'.surroundings = w.surroundings
  asks : Asks (fun c => c.isScan = false) w w'

theorem Beside.of_same (hsurroundings : w'.surroundings = w.surroundings) (hair : w'.air = w.air) :
    Beside w w' := ⟨hsurroundings, .of_air hair⟩

theorem Beside.refl (w : Endpoint ρ σ) : Beside w w := .of_same rfl rfl

theorem Beside.trans (h₁ : Beside w w') (h₂ : Beside w' w'') : Beside w w'' :=
  ⟨h₂.surroundings.trans h₁.surroundings, h₁.asks.trans h₂.asks⟩

theorem Beside.of_before {u : Endpoint ρ σ} (h : Beside u w')
    (hsurroundings : u.surroundings = w.surroundings) (hair : u.air = w.air) : Beside w w' :=
  .trans (.of_same hsurroundings hair) h

theorem Beside.submit {c : Call} (hc : c.isScan = false) (w : Endpoint ρ σ) :
    Beside w (w.submit c).2 := ⟨rfl, .submit c hc⟩

theorem Beside.of_submit {c : Call} (hc : c.isScan = false)
    (hsurroundings : w'.surroundings = w.surroundings) (hair : w'.air = (w.submit c).2.air) :
    Beside w w' := ⟨hsurroundings, .of_submit hc hair⟩

theorem Beside.devices (h : Beside w w') : w'.transport.devices = w.transport.devices :=
  congrArg Surroundings.devices h.surroundings

theorem Beside.observed (h : Beside w w') : w'.transport.observed = w.transport.observed :=
  congrArg Surroundings.observed h.surroundings

theorem Beside.discovered (h : Beside w w') : w'.transport.discovered = w.transport.discovered :=
  congrArg Surroundings.discovered h.surroundings

theorem Beside.scanning (h : Beside w w') : w'.transport.scanning = w.transport.scanning :=
  congrArg Surroundings.scanning h.surroundings

variable (w)

theorem beside_tryCandidates (cs : List Candidate) : Beside w (tryCandidates cs w) := by
  induction cs generalizing w with
  | nil => exact .of_same rfl rfl
  | cons c rest ih =>
    have hasked : Beside w (w.turnedAway c rest) :=
      .of_submit (c := .connect c.address) rfl rfl rfl
    rw [tryCandidates]
    dsimp only
    split
    · exact .of_same rfl rfl
    · split
      · split
        · exact .of_submit (c := .connect c.address) rfl rfl rfl
        · exact .of_submit (c := .connect c.address) rfl rfl rfl
      · exact hasked.trans (ih _)

theorem beside_dropLink : Beside w w.dropLink := .of_submit (c := .disconnect) rfl rfl rfl

theorem beside_drain : Beside w w.drain.2 := by
  have hsend (fragment : List UInt8) (queue : FragmentQueue) :
      Beside w (w.send fragment queue).2 := by
    unfold send
    dsimp only
    split
    · exact .of_submit (c := .write .write fragment) rfl rfl rfl
    · exact .of_submit (c := .write .write fragment) rfl rfl rfl
  rw [drain_eq]
  split
  · split
    · exact hsend _ _
    · exact .refl w
  · exact .refl w

theorem beside_write (bytes : List UInt8) : Beside w (w.write bytes).2 := by
  have hwrite := answered_write bytes w
  generalize (w.write bytes).1 = ok, (w.write bytes).2 = w' at hwrite ⊢
  cases hwrite with
  | @accepted queue => exact (beside_drain (w.withQueue queue)).of_before rfl rfl
  | _ => exact .of_same rfl rfl

theorem beside_disconnect : Beside w w.disconnect := by
  unfold disconnect
  dsimp only
  split
  · exact .of_same rfl rfl
  · exact .of_submit (c := .disconnect) rfl rfl rfl

theorem beside_onLinkDown [DeviceStore σ] : Beside w w.onLinkDown := by
  have hdown := linkDownDone_onLinkDown w
  generalize w.onLinkDown = w' at hdown ⊢
  cases hdown with
  | failed p h => exact (beside_tryCandidates _ _).of_before rfl rfl
  | _ => exact .of_same rfl rfl

theorem beside_onServicesDiscovered (success : Bool) :
    Beside w (w.onServicesDiscovered success) := by
  have hasked : Beside w (w.submit (.enableNotify .notify)).2 := .submit rfl w
  unfold onServicesDiscovered
  dsimp only
  split
  · exact .refl w
  · split
    · split
      · exact hasked.trans ((beside_drain _).of_before rfl rfl)
      · exact hasked.trans (beside_dropLink _)
    · exact beside_dropLink w

theorem beside_onWriteComplete (success : Bool) : Beside w (w.onWriteComplete success) := by
  unfold onWriteComplete
  dsimp only
  split
  · exact .refl w
  · split
    · exact (beside_drain _).of_before rfl rfl
    · exact .of_same rfl rfl
  · exact .of_same rfl rfl

theorem beside_onReceived (fragment : List UInt8) : Beside w (w.onReceived fragment) := by
  obtain ⟨inbound, heq⟩ := onReceived_eq fragment w
  rw [heq]
  exact .of_same rfl rfl

/-- Of the events, only the reports of scans and of a link that came up touch the surroundings. -/
theorem beside_handle [DeviceStore σ] {e : Event} (hresult : ∀ d, e ≠ .scanResult d)
    (hcomplete : e ≠ .scanComplete) (hup : e ≠ .linkUp) : Beside w (w.handle e) := by
  cases e with
  | scanResult d => exact absurd rfl (hresult d)
  | scanComplete => exact absurd rfl hcomplete
  | linkUp => exact absurd rfl hup
  | linkDown => exact beside_onLinkDown w
  | servicesDiscovered success => exact beside_onServicesDiscovered w success
  | writeComplete success => exact beside_onWriteComplete w success
  | received fragment => exact beside_onReceived w fragment

end

/-! ## Reports -/

section

variable [DeviceStore σ] (w : Endpoint ρ σ)

/-- A sighting is listed and observed; the device may come to be remembered. -/
theorem surroundings_onScanResult (d : Device) :
    ∃ devices store, (w.onScanResult d).surroundings =
      { w.surroundings with
        devices, store
        observed := Transport.observe d w.transport.observed
        discovered := w.transport.discovered.insert d.address d.summary } := by
  unfold onScanResult
  dsimp only
  split
  · exact ⟨_, _, rfl⟩
  · exact ⟨_, _, rfl⟩

theorem air_onScanResult (d : Device) : (w.onScanResult d).air = w.air := by
  unfold onScanResult
  dsimp only
  split <;> rfl

omit [DeviceStore σ] in
theorem surroundings_onScanComplete :
    w.onScanComplete.surroundings = { w.surroundings with scanning := false } := by
  unfold onScanComplete update surroundings
  dsimp only
  split <;> rfl

/-- What the report of a link that came up does to the surroundings: nothing, or the peer of the
link is remembered, which is saved if it is new, and the scan under way is stopped. -/
inductive Greeted [Radio ρ] (w : Endpoint ρ σ) : Endpoint ρ σ → Prop
  | beside {w' : Endpoint ρ σ} (hno : ∀ p, w.transport.connection ≠ .connecting p false)
      (h : Beside w w') : Greeted w w'
  | linked {u w' : Endpoint ρ σ} (p : Address) (hc : w.transport.connection = .connecting p false)
      (same : u.surroundings =
        let devices := w.transport.devices.recordConnected p
        { w.surroundings with
          devices
          store := if w.transport.devices.newlyConnected p then (DeviceStore.save devices w.store).2
            else w.store })
      (air : u.air = w.air) (h : Beside u.endScan w') : Greeted w w'

theorem greeted_onLinkUp [Radio ρ] : Greeted w w.onLinkUp := by
  cases hc : w.transport.connection with
  | disconnected =>
    rw [onLinkUp, hc]
    exact .beside (by simp [hc]) (.refl w)
  | connected p ready teardown =>
    rw [onLinkUp, hc]
    exact .beside (by simp [hc]) (.refl w)
  | connecting p teardown =>
    cases teardown with
    | true =>
      rw [onLinkUp, hc]
      exact .beside (by simp [hc]) (.of_submit (c := .disconnect) rfl rfl rfl)
    | false =>
      have hasked : Beside (w.greeting p).endScan ((w.opening p).submit .discover).2 :=
        (Beside.submit (c := .discover) rfl (w.opening p)).of_before rfl rfl
      refine .linked (u := w.greeting p) p hc ?_ ?_ ?_
      · unfold greeting
        dsimp only
        split <;> rfl
      · unfold greeting
        dsimp only
        split <;> rfl
      · rw [onLinkUp_of_wanted hc]
        split
        · exact hasked
        · exact hasked.trans (beside_dropLink _)

end

theorem surroundings_endScan [Radio ρ] (w : Endpoint ρ σ) :
    w.endScan.surroundings = { w.surroundings with scanning := false } := by
  unfold endScan
  split
  · rfl
  · rename_i hno
    rw [← eq_false_of_ne_true hno]
    rfl

/-- No event but a sighting changes the lists of devices. -/
theorem kept_handle [Radio ρ] [DeviceStore σ] {e : Event} (he : ∀ d, e ≠ .scanResult d)
    (w : Endpoint ρ σ) :
    (w.handle e).transport.observed = w.transport.observed ∧
      (w.handle e).transport.discovered = w.transport.discovered := by
  by_cases hcomplete : e = .scanComplete
  · subst hcomplete
    have hsame := w.surroundings_onScanComplete
    exact ⟨congrArg Surroundings.observed hsame, congrArg Surroundings.discovered hsame⟩
  · by_cases hup : e = .linkUp
    · subst hup
      change w.onLinkUp.transport.observed = _ ∧ w.onLinkUp.transport.discovered = _
      have hlink := greeted_onLinkUp w
      generalize w.onLinkUp = w' at hlink ⊢
      cases hlink with
      | beside hno h => exact ⟨h.observed, h.discovered⟩
      | linked p hc same air h =>
        have hsame := h.surroundings.trans (surroundings_endScan _)
        rw [same] at hsame
        exact ⟨congrArg Surroundings.observed hsame, congrArg Surroundings.discovered hsame⟩
    · have h := beside_handle w he hcomplete hup
      exact ⟨h.observed, h.discovered⟩

/-! ## Rankings -/

/-- How the names of vehicle interfaces begin. -/
def nameStart (w : Endpoint ρ σ) : String := w.transport.settings.deviceName

/-- The candidates in the order in which a search would try them. -/
def ranked [Radio ρ] (w : Endpoint ρ σ) (start : String) : List Candidate :=
  Ranking.order start (Radio.bonded w.radio) w.transport.observed w.transport.devices

/-- Whether a transport that is asked to look for any device would rank candidates. -/
def mayRank (t : Transport) : Bool := t.running && !t.isBusy && t.policy.mode = .automatic

/-- Whether an action ranks candidates. -/
def ranks (a : Action) (t : Transport) : Bool :=
  match a with
  | .connect none => mayRank t
  | .pollAt instant => t.policy.isDue instant && mayRank t
  | _ => false

theorem planFor_eq_rank (target : Option Address) (t : Transport) :
    planFor target t = .rank ↔ target = none ∧ t.policy.mode = .automatic := by
  unfold planFor
  cases target with
  | some a => simp
  | none =>
    unfold Reconnect.Policy.plan
    cases t.policy.mode with
    | automatic => simp
    | explicit => cases t.policy.target.or t.devices.lastConnected <;> simp

theorem ranks_connect (target : Option Address) (t : Transport) :
    ranks (.connect target) t = true ↔
      t.running = true ∧ ¬ t.isBusy = true ∧ planFor target t = .rank := by
  rw [planFor_eq_rank]
  cases target with
  | none => simp [ranks, mayRank, and_assoc]
  | some a => simp [ranks]

/-! ## What consumers do -/

section

variable [Radio ρ] [DeviceStore σ] {w : Endpoint ρ σ}

/-- After a ranking was made: its head is remembered if nothing else is to begin with, which is
saved, and its candidates are listed among the devices ever seen. -/
def listing (w : Endpoint ρ σ) : Endpoint ρ σ :=
  let ranked := w.ranked w.nameStart
  let devices := Ranking.remember ranked w.transport.devices
  { w with
    store := if devices = w.transport.devices then w.store else (DeviceStore.save devices w.store).2
    transport :=
      { w.transport with
        devices
        discovered := ranked.foldl (fun m c => m.insert c.address c.text) w.transport.discovered } }

theorem listing_of_nil (h : w.ranked w.nameStart = []) : w.listing = w := by
  have hsame : Ranking.remember [] w.transport.devices = w.transport.devices := by
    unfold Ranking.remember
    split <;> simp_all
  rw [listing, h, hsame, if_pos rfl]
  rfl

theorem rankCandidates_eq_listing (w : Endpoint ρ σ) :
    w.rankCandidates =
      (if (w.ranked w.nameStart).isEmpty && !w.transport.scanning then w.listing.beginScan
        else w.listing).queueing (w.ranked w.nameStart) := by
  let ranked := w.ranked w.nameStart
  let devices := Ranking.remember ranked w.transport.devices
  let kept := w.update fun t => { t with devices }
  let saved := if devices ≠ w.transport.devices then kept.persist else kept
  let listed := saved.update fun t =>
    { t with discovered := ranked.foldl (fun m c => m.insert c.address c.text) t.discovered }
  have hlisted : listed = w.listing := by
    dsimp only [listed, saved]
    rw [listing]
    by_cases hsame : devices = w.transport.devices
    · rw [if_neg (not_not.2 hsame), if_pos hsame]
      rfl
    · rw [if_pos hsame, if_neg hsame]
      rfl
  have hscanning : listed.transport.scanning = w.transport.scanning := by
    rw [hlisted]
    rfl
  change (if ranked.isEmpty && !listed.transport.scanning then listed.beginScan
    else listed).queueing ranked = _
  rw [hscanning, hlisted]

/-- What an action of a consumer does to the surroundings. -/
inductive Looks (w : Endpoint ρ σ) : Action → Endpoint ρ σ → Prop
  | beside {a : Action} {w' : Endpoint ρ σ} (hno : ranks a w.transport = false)
      (h : Beside w w') : Looks w a w'
  | stops {w' : Endpoint ρ σ} (running : w.transport.running = true)
      (h : Beside (w.halted.issue .stopScan).forgetScan w') : Looks w .stop w'
  | scans : Looks w .startScan w.beginScan
  | lists {a : Action} {w' : Endpoint ρ σ} (hranks : ranks a w.transport = true)
      (hfound : ((w.ranked w.nameStart).isEmpty && !w.transport.scanning) = false)
      (h : Beside w.listing w') : Looks w a w'
  /-- There is nothing to list and no scan is under way. -/
  | searches {a : Action} {w' : Endpoint ρ σ} (hranks : ranks a w.transport = true)
      (hnone : w.ranked w.nameStart = []) (hidle : w.transport.scanning = false)
      (h : Beside w.beginScan w') : Looks w a w'

theorem looks_rankCandidates {a : Action} {w' : Endpoint ρ σ} (hranks : ranks a w.transport = true)
    (h : Beside w.rankCandidates w') : Looks w a w' := by
  rw [rankCandidates_eq_listing] at h
  cases hsearch : (w.ranked w.nameStart).isEmpty && !w.transport.scanning with
  | false =>
    rw [hsearch, if_neg Bool.false_ne_true] at h
    exact .lists hranks hsearch (h.of_before rfl rfl)
  | true =>
    obtain ⟨hnone, hidle⟩ : w.ranked w.nameStart = [] ∧ w.transport.scanning = false := by
      simpa using hsearch
    rw [hsearch, if_pos rfl, listing_of_nil hnone] at h
    exact .searches hranks hnone hidle (h.of_before rfl rfl)

/-- What a ranking uses depends neither on the queued candidates nor on the policy. -/
theorem Looks.of_update {target : Option Address} {a : Action} (candidates : List Candidate)
    (policy : Reconnect.Policy) {v w' : Endpoint ρ σ}
    (hv : v = w.update fun t => { t with candidates, policy }) (h : Looks v (.connect target) w')
    (hranks : ranks (.connect target) v.transport = ranks a w.transport) : Looks w a w' := by
  subst hv
  cases h with
  | beside hno h => exact .beside (hranks ▸ hno) (h.of_before rfl rfl)
  | lists hr hfound h => exact .lists (hranks ▸ hr) hfound (h.of_before rfl rfl)
  | searches hr hnone hidle h =>
    exact .searches (hranks ▸ hr) hnone hidle (h.of_before rfl rfl)

/-- A plan that is no ranking only queues candidates. -/
theorem beside_follow {plan : Reconnect.Plan} (hplan : plan ≠ .rank) (w : Endpoint ρ σ) :
    Beside w (w.follow plan) := by
  cases plan with
  | rank => exact absurd rfl hplan
  | target a => exact .of_same rfl rfl
  | idle => exact .refl w

theorem looks_connect (target : Option Address) (w : Endpoint ρ σ) :
    Looks w (.connect target) (w.connect target) := by
  have hranks := ranks_connect target w.transport
  by_cases hmay : w.transport.running = true ∧ ¬ w.transport.isBusy = true
  · obtain ⟨hrun, hidle⟩ := hmay
    rw [connect_of_running hrun, connectBody_of_disconnected (disconnected_of_not_busy hidle)]
    by_cases hplan : planFor target w.transport = .rank
    · have hr := hranks.2 ⟨hrun, hidle, hplan⟩
      have hlooks : Looks (w.queueing []) (.connect target)
          (w.queueing []).rankCandidates.attemptNext :=
        looks_rankCandidates hr (beside_tryCandidates _ _)
      rw [hplan]
      exact hlooks.of_update [] w.transport.policy rfl rfl
    · have hfollow : Beside w ((w.queueing []).follow (planFor target w.transport)) :=
        (beside_follow hplan (w.queueing [])).of_before rfl rfl
      exact .beside (by simpa [hplan] using hranks) (hfollow.trans (beside_tryCandidates _ _))
  · have hsame : w.connect target = w := by
      by_cases hrun : w.transport.running = true
      · have hbusy : w.transport.isBusy = true := by simpa [hrun] using hmay
        rw [connect_of_running hrun, connectBody_of_busy hbusy]
      · exact connect_of_stopped (eq_false_of_ne_true hrun) target
    have hno : ¬ ranks (.connect target) w.transport = true :=
      fun hr => hmay ⟨(hranks.1 hr).1, (hranks.1 hr).2.1⟩
    rw [hsame]
    exact .beside (eq_false_of_ne_true hno) (.refl w)

theorem looks_pollAt (instant : Nanos) (w : Endpoint ρ σ) :
    Looks w (.pollAt instant) (w.pollAt instant) := by
  cases hdue : w.pollDue instant with
  | true =>
    let claimed := w.update fun t => { t with policy := t.policy.recordAttempt instant }
    have hsame : ranks (.connect none) claimed.transport =
        ranks (.pollAt instant) w.transport := by
      simp only [ranks, (pollDue_iff.1 hdue).2.2, Bool.true_and]
      rfl
    rw [pollAt_of_due hdue]
    exact (looks_connect none claimed).of_update w.transport.candidates
      (w.transport.policy.recordAttempt instant) rfl hsame
  | false =>
    have hno : ranks (.pollAt instant) w.transport = false := by
      refine eq_false_of_ne_true fun hr => Bool.false_ne_true (hdue.symm.trans ?_)
      simp only [ranks, mayRank, Bool.and_eq_true, Bool.not_eq_true'] at hr
      exact pollDue_iff.2 ⟨hr.2.1.1, disconnected_of_not_busy (by simp [hr.2.1.2]), hr.1⟩
    rw [pollAt_of_not_due hdue]
    exact .beside hno (.refl w)

theorem looks_act {a : Action} (ha : a.byConsumer = true) (w : Endpoint ρ σ) :
    Looks w a (w.act a) := by
  cases a with
  | connect target => exact looks_connect target w
  | pollAt instant => exact looks_pollAt instant w
  | startScan => exact .scans
  | stop =>
    cases hrun : w.transport.running with
    | true =>
      rw [act, stop, halt, if_pos hrun]
      exact .stops hrun (beside_disconnect _)
    | false =>
      rw [act, stop_of_stopped hrun]
      exact .beside rfl (.refl w)
  | start => exact .beside rfl (.of_same rfl rfl)
  | disconnect => exact .beside rfl (beside_disconnect w)
  | write bytes => exact .beside rfl (beside_write w bytes)
  | read n =>
    obtain ⟨inbound, heq⟩ := read_eq n w
    rw [act, heq]
    exact .beside rfl (.of_same rfl rfl)
  | setTarget target =>
    obtain ⟨policy, heq⟩ := setTarget_eq target w
    rw [act, heq]
    exact .beside rfl (.of_same rfl rfl)
  | drainDue => exact .beside rfl (beside_drain w)
  | wait d => exact .beside rfl (.of_same rfl rfl)
  | handle e => cases ha
  | next => cases ha
  | raise e => cases ha

end

end Endpoint

/-! ## Turns -/

namespace Turn

open Endpoint

variable {ρ σ : Type} [Radio ρ] [DeviceStore σ]

omit [Radio ρ] [DeviceStore σ] in
/-- Whether the turn ranks candidates. -/
def lists (t : Turn ρ σ) : Bool :=
  match t.step with
  | .act a => ranks a t.before.transport
  | _ => false

/-- What a turn does to the lists of devices. -/
inductive Views (t : Turn ρ σ) : Prop
  | sees (d : Device) (event : t.event? = some (.scanResult d)) (idle : t.lists = false)
      (observed : t.after.transport.observed = Transport.observe d t.before.transport.observed)
      (discovered : t.after.transport.discovered =
        t.before.transport.discovered.insert d.address d.summary)
  | lists (event : t.event? = none) (ranking : t.lists = true)
      (observed : t.after.transport.observed = t.before.transport.observed ∨
        t.after.transport.observed = [])
      (discovered : t.after.transport.discovered =
        (t.before.ranked t.before.nameStart).foldl (fun m c => m.insert c.address c.text)
          t.before.transport.discovered)
  | other (event : ∀ d, t.event? ≠ some (.scanResult d)) (idle : t.lists = false)
      (observed : t.after.transport.observed = t.before.transport.observed ∨
        t.after.transport.observed = [])
      (discovered : t.after.transport.discovered = t.before.transport.discovered)

omit [Radio ρ] [DeviceStore σ] in
theorem lists_of_idle {t : Turn ρ σ} (h : ∀ a, t.step = .act a → a.byConsumer = false) :
    t.lists = false := by
  unfold lists
  split
  · rename_i a hstep
    have ha := h a hstep
    cases a <;> first | rfl | cases ha
  · rfl

theorem views (t : Turn ρ σ) : t.Views := by
  cases t.kind with
  | still idle event transport log =>
    exact .other (by simp [event]) (lists_of_idle idle) (.inl (by rw [transport]))
      (by rw [transport])
  | acts a ha hstep =>
    have hlists : t.lists = ranks a t.before.transport := by rw [lists, hstep]
    have hevent : t.event? = none := event?_of_consumer ha hstep
    have hlooks := looks_act ha t.before
    rw [← after_of_step hstep] at hlooks
    generalize hafter : t.after = w' at hlooks
    cases hlooks with
    | beside hno h =>
      exact .other (by simp [hevent]) (hlists.trans hno) (.inl (hafter ▸ h.observed))
        (hafter ▸ h.discovered)
    | stops running h =>
      exact .other (by simp [hevent]) hlists (.inl (hafter ▸ h.observed)) (hafter ▸ h.discovered)
    | scans => exact .other (by simp [hevent]) hlists (.inr (hafter ▸ rfl)) (hafter ▸ rfl)
    | lists hranks hfound h =>
      exact .lists hevent (hlists.trans hranks) (.inl (hafter ▸ h.observed)) (hafter ▸ h.discovered)
    | searches hranks hnone hidle h =>
      refine .lists hevent (hlists.trans hranks) (.inr (hafter ▸ h.observed)) ?_
      rw [hnone]
      exact hafter ▸ h.discovered
  | handles e w idle event transport radio after =>
    have hlists := lists_of_idle idle
    by_cases hresult : ∃ d, e = .scanResult d
    · obtain ⟨d, rfl⟩ := hresult
      obtain ⟨devices, store, hsame⟩ := w.surroundings_onScanResult d
      refine .sees d event hlists ?_ ?_
      · rw [after, ← transport]
        exact congrArg Surroundings.observed hsame
      · rw [after, ← transport]
        exact congrArg Surroundings.discovered hsame
    · have hother : ∀ d, e ≠ .scanResult d := fun d heq => hresult ⟨d, heq⟩
      obtain ⟨hobserved, hdiscovered⟩ := kept_handle hother w
      refine .other ?_ hlists (.inl ?_) ?_
      · rw [event]
        exact fun d heq => hother d (Option.some.inj heq)
      · rw [after, ← transport, hobserved]
      · rw [after, ← transport, hdiscovered]

end Turn

end VehicleLink
