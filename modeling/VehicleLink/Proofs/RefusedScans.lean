import VehicleLink.Proofs.History
import VehicleLink.Proofs.RankingOrder
import VehicleLink.Proofs.Remembered
import VehicleLink.Radio.Simulated

/-!
# Refused scans

A transport takes a scan to be under way when the last call to scan was accepted and neither a call
to stop nor the report that the scan is over came after it (`ScanHeard`). That is not quite when one
runs (`ScanRuns`): a scan that is refused leaves the one before it running, but is heard as its end
(`ScanMissed`). A refused scan also forgets what the scan before it saw.

`ScanDone` says what one turn does about scanning; from it come the calls that a turn makes and, by
induction, what a transport takes to be under way after a run (`scanning_run`).
`refused_scan_harmless_iff` collects when a refused scan does no harm.
-/

namespace VehicleLink

namespace Entry

/-- Whether a scan is taken to be under way after something happened. -/
def scanning (before : Bool) : Entry → Bool
  | .called (.scan _) accepted => accepted
  | .called .stopScan _ => false
  | .handled .scanComplete => false
  | _ => before

/-- A scan that was accepted. -/
def beginsScan : Entry → Bool
  | .called (.scan _) accepted => accepted
  | _ => false

def refusesScan : Entry → Bool
  | .called (.scan _) accepted => !accepted
  | _ => false

/-- A call to stop scanning, or the report that the scan is over. -/
def endsScan : Entry → Bool
  | .called .stopScan _ => true
  | .handled .scanComplete => true
  | _ => false

/-- A scan was accepted, and has not ended since. -/
def ScanRuns : List Entry → Prop :=
  Since (fun _ x => x.beginsScan = true) fun x => x.endsScan = false

/-- A scan was accepted, and since then it has not ended and none was refused. -/
def ScanHeard : List Entry → Prop :=
  Since (fun _ x => x.beginsScan = true) fun x => x.endsScan = false ∧ x.refusesScan = false

/-- A scan was refused while another one ran, and since then that one has not ended and none was
accepted. -/
def ScanMissed : List Entry → Prop :=
  Since (fun before x => ScanRuns before ∧ x.refusesScan = true)
    fun x => x.endsScan = false ∧ x.beginsScan = false

/-- What happens begins, refuses or ends a scan, or has nothing to do with scans. -/
theorem scan_cases (x : Entry) :
    (x.beginsScan = true ∧ x.refusesScan = false ∧ x.endsScan = false ∧ ∀ b, x.scanning b = true) ∨
    (x.beginsScan = false ∧ x.refusesScan = true ∧ x.endsScan = false ∧
      ∀ b, x.scanning b = false) ∨
    (x.beginsScan = false ∧ x.refusesScan = false ∧ x.endsScan = true ∧
      ∀ b, x.scanning b = false) ∨
    (x.beginsScan = false ∧ x.refusesScan = false ∧ x.endsScan = false ∧
      ∀ b, x.scanning b = b) := by
  cases x with
  | handled e => cases e <;> simp [beginsScan, refusesScan, endsScan, scanning]
  | called c accepted =>
    cases c <;> cases accepted <;> simp [beginsScan, refusesScan, endsScan, scanning]

theorem scanHeard_iff (h : List Entry) : h.foldl scanning false = true ↔ ScanHeard h := by
  induction h using List.reverseRecOn with
  | nil => exact iff_of_false Bool.false_ne_true not_since_nil
  | append_singleton h x ih =>
    rw [List.foldl_append, List.foldl_cons, List.foldl_nil, ScanHeard, since_concat, ← ScanHeard,
      ← ih]
    rcases x.scan_cases with hx | hx | hx | hx <;> simp [hx]

/-- A scan that runs is heard, or missed since one was refused. -/
theorem scanRuns_iff (h : List Entry) : ScanRuns h ↔ ScanHeard h ∨ ScanMissed h := by
  induction h using List.reverseRecOn with
  | nil => simp [ScanRuns, ScanHeard, ScanMissed, not_since_nil]
  | append_singleton h x ih =>
    simp only [ScanRuns, ScanHeard, ScanMissed, since_concat]
    rw [← ScanRuns, ← ScanHeard, ← ScanMissed]
    rcases x.scan_cases with hx | hx | hx | hx
    · simp [hx]
    · simp [hx, ih]
    · simp [hx]
    · simp [hx, ih]

theorem not_missed_of_heard {h : List Entry} (hheard : ScanHeard h) : ¬ ScanMissed h := by
  induction h using List.reverseRecOn with
  | nil => exact not_since_nil
  | append_singleton h x ih =>
    rw [ScanHeard, since_concat, ← ScanHeard] at hheard
    rw [ScanMissed, since_concat, ← ScanMissed]
    rcases x.scan_cases with hx | hx | hx | hx
    · simp [hx]
    · simp [hx] at hheard
    · simp [hx]
    · simp_all

end Entry

open Entry

/-! ## Rankings without observations -/

namespace Ranking

variable {start : String} {bonded observed : List Device} {devices : DeviceSet}

theorem eligible_of_observed {d : Device} (hd : d ∈ observed)
    (hvi : d.isVehicleInterface start = true) :
    Eligible start bonded observed devices d.address := by
  refine .inr (.inr ⟨d, hd, rfl, ?_⟩)
  simpa [Device.isVehicleInterface] using hvi

theorem Eligible.observing {a : Address} (h : Eligible start bonded [] devices a) :
    Eligible start bonded observed devices a := by
  rcases h with hpaired | hknown | ⟨d, hd, -⟩
  · exact .inl hpaired
  · exact .inr (.inl hknown)
  · cases hd

theorem first?_observing {a : Address} {c : Candidate}
    (h : first? start bonded [] devices a = some c) :
    first? start bonded observed devices a = some c := by
  rw [first?, List.find?_nil, Option.map_none, Option.or_none, ← Option.or_assoc] at *
  rw [h, Option.some_or]

/-- What comes before the observed devices is in the same order with them. -/
theorem Precedes.observing {a b : Address} (h : Precedes start bonded [] devices a b) :
    Precedes start bonded observed devices a b := by
  obtain ⟨hne, hlast | ⟨hlast, hlt⟩⟩ := h
  · exact ⟨hne, .inl hlast⟩
  · have hplaces : places start bonded observed devices = places start bonded [] devices ++
        (observed.filter fun d => d.isVehicleInterface start).map (·.address) := by
      simp [places]
    have ha : a ∈ places start bonded [] devices :=
      List.idxOf_lt_length_iff.1 (Nat.lt_of_lt_of_le hlt List.idxOf_le_length)
    refine ⟨hne, .inr ⟨hlast, ?_⟩⟩
    rw [hplaces, List.idxOf_append_of_mem ha]
    by_cases hb : b ∈ places start bonded [] devices
    · rw [List.idxOf_append_of_mem hb]
      exact hlt
    · rw [List.idxOf_append_of_notMem hb]
      have hla := List.idxOf_lt_length_iff.2 ha
      omega

/-- Without the observed devices the ranking is the same exactly if all vehicle interfaces among
them may be tried anyway. -/
theorem order_unobserved_iff :
    order start bonded [] devices = order start bonded observed devices ↔
      ∀ d ∈ observed, d.isVehicleInterface start = true →
        Eligible start bonded [] devices d.address := by
  have hwithout : IsRanking start bonded [] devices (order start bonded [] devices) :=
    isRanking_order
  have hwith : IsRanking start bonded observed devices (order start bonded observed devices) :=
    isRanking_order
  constructor
  · intro hsame d hd hvi
    rw [← hwithout.complete, hsame, hwith.complete]
    exact eligible_of_observed hd hvi
  · intro hothers
    refine IsRanking.unique ⟨hwithout.distinct, fun a => ?_, fun c hc => ?_, ?_⟩ hwith
    · rw [hwithout.complete]
      refine ⟨Eligible.observing, ?_⟩
      rintro (hpaired | hknown | ⟨d, hd, rfl, hvi⟩)
      · exact .inl hpaired
      · exact .inr (.inl hknown)
      · exact hothers d hd (by simpa [Device.isVehicleInterface] using hvi)
    · exact first?_observing (hwithout.entries c hc)
    · exact hwithout.ordered.imp Precedes.observing

end Ranking

/-! ## Turns -/

namespace Turn

open Endpoint

variable {ρ σ : Type} [Radio ρ] [DeviceStore σ]

/-- Whether a ranking in the turn would ask for a scan: there is nothing to list and no scan is
taken to be under way. -/
def wantsScan (t : Turn ρ σ) : Bool :=
  (t.before.ranked t.before.nameStart).isEmpty && !t.before.transport.scanning

/-- What a turn does about scanning. -/
inductive ScanDone (t : Turn ρ σ) : Prop
  | keeps (calls : ∀ c ∈ t.calls, c.1.isScan = false) (event : t.event? ≠ some .scanComplete)
      (scanning : t.after.transport.scanning = t.before.transport.scanning)
      (link : t.establishes = true → t.before.transport.scanning = false)
      (ranking : t.lists = true → t.wantsScan = false)
  | completes (event : t.event? = some .scanComplete) (calls : t.calls = [])
      (scanning : t.after.transport.scanning = false) (idle : t.lists = false)
  | asks (accepted : Bool) (rest : List (Call × Bool)) (event : t.event? = none)
      (calls : t.calls = (.scan t.before.transport.settings.scanWindow, accepted) :: rest)
      (others : ∀ c ∈ rest, c.1.isScan = false)
      (scanning : t.after.transport.scanning = accepted)
      (ranking : t.lists = true → t.wantsScan = true)
  | stops (accepted : Bool) (rest : List (Call × Bool)) (event : t.event? ≠ some .scanComplete)
      (calls : t.calls = (.stopScan, accepted) :: rest) (others : ∀ c ∈ rest, c.1.isScan = false)
      (scanning : t.after.transport.scanning = false) (idle : t.lists = false)
      (link : t.establishes = true → t.before.transport.scanning = true)

variable {t : Turn ρ σ}

/-- The calls of a turn that goes on beside the surroundings, behind the ones it began with. -/
theorem calls_of_beside {u : Endpoint (Logged ρ) σ} {first : List (Call × Bool)}
    (hfirst : u.radio.log = t.before.radio.log ++ first) (h : Beside u t.after) :
    ∃ rest, t.calls = first ++ rest ∧ ∀ c ∈ rest, c.1.isScan = false := by
  obtain ⟨rest, hlog, hrest⟩ := h.asks.log
  refine ⟨rest, calls_of_log ?_, hrest⟩
  rw [hlog, hfirst, List.append_assoc]

theorem scanDone_of_act {a : Action} (ha : a.byConsumer = true) (hstep : t.step = .act a) :
    t.ScanDone := by
  have hevent : t.event? = none := event?_of_consumer ha hstep
  have hlink : ¬ t.establishes = true := by simp [establishes_iff, hevent]
  have hlists : t.lists = ranks a t.before.transport := by rw [lists, hstep]
  have hlooks := looks_act ha t.before
  rw [← after_of_step hstep] at hlooks
  generalize hafter : t.after = w' at hlooks
  cases hlooks with
  | beside hno h =>
    subst hafter
    obtain ⟨rest, hcalls, hrest⟩ := calls_of_beside (List.append_nil _).symm h
    refine .keeps (by simpa [hcalls] using hrest) (by simp [hevent]) h.scanning
      (fun hl => absurd hl hlink) fun hl => ?_
    rw [hlists, hno] at hl
    cases hl
  | stops running h =>
    subst hafter
    obtain ⟨rest, hcalls, hrest⟩ := calls_of_beside rfl h
    exact .stops _ rest (by simp [hevent]) hcalls hrest h.scanning hlists
      fun hl => absurd hl hlink
  | scans =>
    refine .asks _ [] hevent (calls_of_log (by rw [hafter]; rfl)) (by simp) (by rw [hafter]; rfl)
      fun hl => ?_
    rw [hlists] at hl
    cases hl
  | lists hranks hfound h =>
    subst hafter
    have hlog : t.before.listing.radio.log = t.before.radio.log ++ [] := (List.append_nil _).symm
    obtain ⟨rest, hcalls, hrest⟩ := calls_of_beside hlog h
    exact .keeps (by simpa [hcalls] using hrest) (by simp [hevent]) h.scanning
      (fun hl => absurd hl hlink) fun _ => hfound
  | searches hranks hnone hidle h =>
    subst hafter
    obtain ⟨rest, hcalls, hrest⟩ := calls_of_beside rfl h
    refine .asks _ rest hevent hcalls hrest h.scanning fun _ => ?_
    simp [wantsScan, hnone, hidle]

theorem scanDone_of_linkUp {w : Endpoint (Logged ρ) σ} (event : t.event? = some .linkUp)
    (transport : w.transport = t.before.transport) (radio : w.radio = t.before.radio)
    (after : t.after = w.handle .linkUp) (idle : t.lists = false) : t.ScanDone := by
  have hevent : t.event? ≠ some .scanComplete := by simp [event]
  have hlists : ¬ t.lists = true := by simp [idle]
  have hup : Greeted w t.after := after ▸ greeted_onLinkUp w
  cases hup with
  | beside hno h =>
    have hlog : w.radio.log = t.before.radio.log ++ [] := by rw [radio, List.append_nil]
    obtain ⟨rest, hcalls, hrest⟩ := calls_of_beside hlog h
    refine .keeps (by simpa [hcalls] using hrest) hevent (transport ▸ h.scanning) (fun hl => ?_)
      fun hl => absurd hl hlists
    obtain ⟨-, p, hc⟩ := establishes_iff.1 hl
    exact absurd (transport ▸ hc) (hno p)
  | @linked u _ p hc same air h =>
    have hscanning : u.transport.scanning = t.before.transport.scanning :=
      (congrArg Surroundings.scanning same).trans (by rw [← transport]; rfl)
    have hlog : u.radio.log = t.before.radio.log := by
      rw [← radio]
      exact congrArg (fun x => Logged.log x.1) air
    cases hs : u.transport.scanning with
    | true =>
      have hend : u.endScan = (u.issue .stopScan).update fun t => { t with scanning := false } := by
        rw [endScan, if_pos hs]
      have hstop : ((u.issue .stopScan).update fun t => { t with scanning := false }).radio.log =
          t.before.radio.log ++ [(.stopScan, (u.submit .stopScan).1)] := by
        rw [← hlog]
        rfl
      rw [hend] at h
      obtain ⟨rest, hcalls, hrest⟩ := calls_of_beside hstop h
      exact .stops _ rest hevent hcalls hrest h.scanning idle fun _ => hscanning.symm.trans hs
    | false =>
      have hend : u.endScan = u := by
        rw [endScan, if_neg (by simp [hs])]
      rw [hend] at h
      obtain ⟨rest, hcalls, hrest⟩ := calls_of_beside (by rw [hlog, List.append_nil]) h
      exact .keeps (by simpa [hcalls] using hrest) hevent (h.scanning.trans hscanning)
        (fun _ => hscanning.symm.trans hs) fun hl => absurd hl hlists

theorem scanDone (t : Turn ρ σ) : t.ScanDone := by
  cases t.kind with
  | still idle event transport log =>
    have hcalls : t.calls = [] := calls_of_log (by rw [log, List.append_nil])
    refine .keeps (by simp [hcalls]) (by simp [event]) (by rw [transport]) (fun hl => ?_) fun hl => ?_
    · simp [establishes_iff, event] at hl
    · simp [lists_of_idle idle] at hl
  | acts a ha hstep => exact scanDone_of_act ha hstep
  | handles e w idle event transport radio after =>
    have hlists : ¬ t.lists = true := by simp [lists_of_idle idle]
    have hquiet (hair : (w.handle e).air = w.air) : t.calls = [] := by
      refine calls_of_log ?_
      rw [after, ← radio, List.append_nil]
      exact congrArg (fun x => Logged.log x.1) hair
    by_cases hlink : e = .linkUp
    · subst hlink
      exact scanDone_of_linkUp event transport radio after (lists_of_idle idle)
    · have hno : ¬ t.establishes = true := by simp [establishes_iff, event, hlink]
      by_cases hcomplete : e = .scanComplete
      · subst hcomplete
        refine .completes event (hquiet rfl) ?_ (lists_of_idle idle)
        rw [after]
        exact congrArg Surroundings.scanning w.surroundings_onScanComplete
      · have hevent : t.event? ≠ some .scanComplete := by simpa [event] using hcomplete
        by_cases hresult : ∃ d, e = .scanResult d
        · obtain ⟨d, rfl⟩ := hresult
          obtain ⟨devices, store, hsame⟩ := w.surroundings_onScanResult d
          refine .keeps (by simp [hquiet (w.air_onScanResult d)]) hevent ?_
            (fun hl => absurd hl hno) fun hl => absurd hl hlists
          rw [after, ← transport]
          exact congrArg Surroundings.scanning hsame
        · have h : Beside w t.after := by
            rw [after]
            exact beside_handle w (fun d heq => hresult ⟨d, heq⟩) hcomplete hlink
          have hlog : w.radio.log = t.before.radio.log ++ [] := by rw [radio, List.append_nil]
          obtain ⟨rest, hcalls, hrest⟩ := calls_of_beside hlog h
          exact .keeps (by simpa [hcalls] using hrest) hevent (transport ▸ h.scanning)
            (fun hl => absurd hl hno) fun hl => absurd hl hlists

theorem foldl_scanning_of_calls {cs : List (Call × Bool)} (h : ∀ c ∈ cs, c.1.isScan = false)
    (b : Bool) : (cs.map fun c => Entry.called c.1 c.2).foldl Entry.scanning b = b := by
  induction cs with
  | nil => rfl
  | cons c cs ih =>
    obtain ⟨hc, hcs⟩ := List.forall_mem_cons.1 h
    have hkept : Entry.scanning b (.called c.1 c.2) = b := by
      cases hcall : c.1 <;> simp_all [Call.isScan, Entry.scanning]
    rw [List.map_cons, List.foldl_cons, hkept, ih hcs]

theorem foldl_scanning_of_event {e? : Option Event} (h : e? ≠ some .scanComplete) (b : Bool) :
    (e?.map Entry.handled).toList.foldl Entry.scanning b = b := by
  cases e? with
  | none => rfl
  | some e => cases e <;> first | rfl | exact absurd rfl h

/-- What is taken to be under way follows from what happened. -/
theorem scanning_after (t : Turn ρ σ) :
    t.after.transport.scanning = t.entries.foldl Entry.scanning t.before.transport.scanning := by
  rw [Turn.entries, Endpoint.entries, List.foldl_append]
  cases t.scanDone with
  | keeps calls event scanning link ranking =>
    rw [foldl_scanning_of_event event, foldl_scanning_of_calls calls, scanning]
  | completes event calls scanning idle =>
    rw [event, calls, scanning]
    rfl
  | asks accepted rest event calls others scanning ranking =>
    rw [event, calls, scanning]
    exact (foldl_scanning_of_calls others accepted).symm
  | stops accepted rest event calls others scanning idle link =>
    rw [foldl_scanning_of_event event, calls, scanning]
    exact (foldl_scanning_of_calls others false).symm

/-- Where a link is established, the scan that is taken to be under way is stopped. -/
theorem stopScan_of_link (h : t.establishes = true) :
    (∃ accepted, (.stopScan, accepted) ∈ t.calls) ↔ t.before.transport.scanning = true := by
  obtain ⟨hup, -⟩ := establishes_iff.1 h
  cases t.scanDone with
  | keeps calls event scanning link ranking =>
    refine iff_of_false ?_ (by simp [link h])
    rintro ⟨accepted, hmem⟩
    cases calls _ hmem
  | completes event calls scanning idle => simp [hup] at event
  | asks accepted rest event calls others scanning ranking => simp [hup] at event
  | stops accepted rest event calls others scanning idle link =>
    exact iff_of_true ⟨accepted, by simp [calls]⟩ (link h)

/-- A ranking asks for a scan if there is nothing to list, unless one is taken to be under way. -/
theorem scan_of_lists (h : t.lists = true) :
    (∃ d accepted, (.scan d, accepted) ∈ t.calls) ↔ t.wantsScan = true := by
  cases t.scanDone with
  | keeps calls event scanning link ranking =>
    refine iff_of_false ?_ (by simp [ranking h])
    rintro ⟨d, accepted, hmem⟩
    cases calls _ hmem
  | completes event calls scanning idle => simp [h] at idle
  | asks accepted rest event calls others scanning ranking =>
    exact iff_of_true ⟨_, accepted, by rw [calls]; exact List.mem_cons_self⟩ (ranking h)
  | stops accepted rest event calls others scanning idle link => simp [h] at idle

/-- What a turn notes of a sighting is remembered. -/
theorem known_of_sighting {d : Device} (h : t.event? = some (.scanResult d))
    (hvi : d.isVehicleInterface t.before.nameStart = true) (hbonded : d.bonded = false) :
    d.address ∈ t.after.transport.devices.known := by
  rw [devices_after, DeviceSet.mem_known_noting, notes_of_event h, reported]
  simp [hvi, hbonded, Note.known?]

theorem known_kept {a : Address} (h : a ∈ t.before.transport.devices.known) :
    a ∈ t.after.transport.devices.known := by
  rw [devices_after, DeviceSet.mem_known_noting]
  exact .inl h

end Turn

theorem Transport.mem_of_mem_observe {d e : Device} {l : List Device}
    (h : e ∈ Transport.observe d l) : e = d ∨ e ∈ l := by
  induction l with
  | nil => exact .inl (List.mem_singleton.1 h)
  | cons c rest ih =>
    rw [Transport.observe] at h
    split at h
    · exact (List.mem_cons.1 h).imp_right (List.mem_cons_of_mem c)
    · rcases List.mem_cons.1 h with rfl | h
      · exact .inr List.mem_cons_self
      · exact (ih h).imp_right (List.mem_cons_of_mem c)

/-! ## Runs -/

namespace Endpoint

open Turn

variable {ρ σ : Type} [Radio ρ] [DeviceStore σ] {s : LinkSettings} {w : Endpoint (Logged ρ) σ}

theorem scanning_run (steps : List (Step ρ σ)) (w : Endpoint (Logged ρ) σ) :
    (w.runLogged steps).transport.scanning =
      (history steps w).foldl Entry.scanning w.transport.scanning := by
  induction steps using List.reverseRecOn with
  | nil => rfl
  | append_singleton steps st ih =>
    rw [history_concat, List.foldl_append, ← ih, runLogged_concat]
    exact Turn.scanning_after ⟨w.runLogged steps, st⟩

/-- A vehicle interface that was observed and is not bonded is remembered. -/
def Retains (s : LinkSettings) (t : Transport) : Prop :=
  ∀ d ∈ t.observed, d.isVehicleInterface s.deviceName = true → d.bonded = false →
    d.address ∈ t.devices.known

theorem Retains.after {t : Turn ρ σ} (h : Retains s t.before.transport)
    (hstart : t.before.nameStart = s.deviceName) : Retains s t.after.transport := by
  have hkept (hobserved : t.after.transport.observed = t.before.transport.observed ∨
      t.after.transport.observed = []) : Retains s t.after.transport := by
    intro d hd hvi hbonded
    rcases hobserved with hsame | hnone
    · exact t.known_kept (h d (hsame ▸ hd) hvi hbonded)
    · simp [hnone] at hd
  cases t.views with
  | sees e event idle observed discovered =>
    intro d hd hvi hbonded
    rw [observed] at hd
    rcases Transport.mem_of_mem_observe hd with rfl | hd
    · exact t.known_of_sighting event (hstart ▸ hvi) hbonded
    · exact t.known_kept (h d hd hvi hbonded)
  | lists event ranking observed discovered => exact hkept observed
  | other event idle observed discovered => exact hkept observed

theorem retains_run (hw : Sound s w.transport) (h : Retains s w.transport)
    (steps : List (Step ρ σ)) : Retains s (w.runLogged steps).transport := by
  induction steps using List.reverseRecOn with
  | nil => exact h
  | append_singleton steps st ih =>
    have hsound : Sound s (w.runLogged steps).transport := sound_run hw _
    rw [runLogged_concat]
    refine Retains.after (t := ⟨w.runLogged steps, st⟩) ih ?_
    rw [nameStart, hsound.settings]

omit [DeviceStore σ] in
/-- All that a scan does that the radio refuses. -/
theorem startScan_of_refused {u : Endpoint ρ σ}
    (h : (u.submit (.scan u.transport.settings.scanWindow)).1 = false) :
    u.startScan.1 = false ∧ u.startScan.2.store = u.store ∧
      u.startScan.2.transport = { u.transport with observed := [], scanning := false } := by
  have hrefused : u.startScan.1 = false := h
  refine ⟨hrefused, rfl, ?_⟩
  rw [← hrefused]
  rfl

/-- Any state of any run of a transport that was created. A scan that the radio refuses is answered
so and saves nothing, but it forgets what was observed and that a scan is under way. The ranking is
the same without the observed devices exactly if those among them may be tried anyway that are bonded
vehicle interfaces; all others are remembered. A scan is taken to be under way if one was accepted
and has not ended since, and none was refused since; that is whether one runs exactly if none was
refused while one ran. By what is taken to be under way the scan is stopped where a link is
established, and a ranking that lists nothing asks for another one. -/
theorem refused_scan_harmless_iff {target : Option String} {radio : Logged ρ} {store : σ}
    (hw : create s target radio store = .ok w) (steps : List (Step ρ σ)) :
    let u := w.runLogged steps
    let h := history steps w
    ((u.submit (.scan s.scanWindow)).1 = false →
      u.startScan.1 = false ∧ u.startScan.2.store = u.store ∧
      u.startScan.2.transport = { u.transport with observed := [], scanning := false } ∧
      ∀ bonded,
        Ranking.order s.deviceName bonded [] u.transport.devices =
            Ranking.order s.deviceName bonded u.transport.observed u.transport.devices ↔
          ∀ d ∈ u.transport.observed, d.isVehicleInterface s.deviceName = true → d.bonded = true →
            Ranking.Eligible s.deviceName bonded [] u.transport.devices d.address) ∧
    (u.transport.scanning = true ↔ ScanHeard h) ∧
    ((u.transport.scanning = true ↔ ScanRuns h) ↔ ¬ ScanMissed h) ∧
    ∀ t ∈ turns steps w,
      (t.establishes = true →
        ((∃ accepted, (.stopScan, accepted) ∈ t.calls) ↔ t.before.transport.scanning = true)) ∧
      (t.lists = true →
        ((∃ d accepted, (.scan d, accepted) ∈ t.calls) ↔ t.wantsScan = true)) := by
  intro u h
  have hsound : Sound s w.transport := sound_create hw
  have husound : Sound s u.transport := sound_run hsound _
  have hfresh : w.transport.scanning = false ∧ w.transport.observed = [] := by
    obtain ⟨b, devices, -, rfl⟩ := create_eq hw
    exact ⟨rfl, rfl⟩
  have hretains : Retains s u.transport :=
    retains_run hsound (by simp [Retains, hfresh.2]) steps
  have hheard : u.transport.scanning = true ↔ ScanHeard h := by
    rw [scanning_run, hfresh.1, scanHeard_iff]
  refine ⟨fun hrefused => ?_, hheard, ?_, fun t _ => ⟨stopScan_of_link, scan_of_lists⟩⟩
  · rw [← husound.settings] at hrefused
    obtain ⟨hanswer, hstore, htransport⟩ := startScan_of_refused hrefused
    refine ⟨hanswer, hstore, htransport, fun bonded => Ranking.order_unobserved_iff.trans ?_⟩
    constructor
    · intro hall d hd hvi _
      exact hall d hd hvi
    · intro hbonded d hd hvi
      cases hb : d.bonded with
      | true => exact hbonded d hd hvi hb
      | false => exact .inr (.inl (hretains d hd hvi hb))
  · rw [hheard, scanRuns_iff]
    constructor
    · intro hiff hmissed
      exact not_missed_of_heard (hiff.2 (.inr hmissed)) hmissed
    · intro hno
      exact ⟨.inl, fun hor => hor.resolve_right hno⟩

/-- A scan that is over saw a vehicle interface, which is remembered for that. When the next scan is
refused the ranking stays as it is. -/
theorem refused_scan_harmless_of_remembered :
    ∃ (w : Endpoint (Logged Radio.Simulated) Store.Memory)
      (steps : List (Step Radio.Simulated Store.Memory)),
      let u := w.runLogged steps
      create {} none ⟨{}, []⟩ {} = .ok w ∧ u.transport.observed ≠ [] ∧ u.startScan.1 = false ∧
      Ranking.order Gatt.deviceName [] [] u.transport.devices =
        Ranking.order Gatt.deviceName [] u.transport.observed u.transport.devices ∧
      (u.transport.scanning = true ↔ ScanRuns (history steps w)) := by
  let d : Device := { address := ⟨0, 0, 0, 0, 0, 10⟩, name := some "OpenXC-VI-1" }
  let w : Endpoint (Logged Radio.Simulated) Store.Memory := fresh {} none {} ⟨{}, []⟩ {}
  have hw : create {} none ⟨{}, []⟩ {} = .ok w := rfl
  let steps : List (Step Radio.Simulated Store.Memory) :=
    [.act .start, .act .startScan, .act (.handle (.scanResult d)), .act (.handle .scanComplete),
      .radio fun r => { r with behaviour := { r.behaviour with refuseScan := true } }]
  obtain ⟨hscan, -, hruns, -⟩ := refused_scan_harmless_iff hw steps
  obtain ⟨hanswer, -, -, hranking⟩ := hscan (by decide)
  have hnone : ∀ x ∈ history steps w, x.refusesScan = false := by decide
  have hmissed : ¬ ScanMissed (history steps w) := by
    rintro ⟨before, x, after, hsplit, ⟨-, hrefused⟩, -⟩
    simp [hnone x (by simp [hsplit])] at hrefused
  have hunbonded : ∀ d ∈ (w.runLogged steps).transport.observed, d.bonded = false := by decide
  have hsame := (hranking []).2 fun d hd _ hbonded => by simp [hunbonded d hd] at hbonded
  exact ⟨w, steps, hw, by decide, hanswer, hsame, hruns.2 hmissed⟩

/-- A scan is accepted and sees a bonded vehicle interface; the next one is refused. The first one
still runs, but is not taken to be under way, and what it saw is forgotten, so that a search finds
nothing to try and asks for another scan. -/
theorem refused_scan_harms :
    ∃ (w : Endpoint (Logged Radio.Simulated) Store.Memory)
      (steps : List (Step Radio.Simulated Store.Memory)),
      let u := w.runLogged steps
      let after := w.runLogged (steps ++ [.act .startScan])
      create {} none ⟨{}, []⟩ {} = .ok w ∧ u.startScan.1 = false ∧
      u.transport.scanning = true ∧ (u.ranked u.nameStart).length = 1 ∧
      ScanRuns (history (steps ++ [.act .startScan]) w) ∧ after.transport.scanning = false ∧
      after.ranked after.nameStart = [] ∧
      Turn.calls ⟨after, .act (.connect none)⟩ = [(.scan u.transport.settings.scanWindow, false)] := by
  let d : Device := { address := ⟨0, 0, 0, 0, 0, 10⟩, name := some "OpenXC-VI-1", bonded := true }
  let w : Endpoint (Logged Radio.Simulated) Store.Memory := fresh {} none {} ⟨{}, []⟩ {}
  let steps : List (Step Radio.Simulated Store.Memory) :=
    [.act .start, .act .startScan, .act (.handle (.scanResult d)),
      .radio fun r => { r with behaviour := { r.behaviour with refuseScan := true } }]
  let window := w.transport.settings.scanWindow
  have hruns : ScanRuns (history (steps ++ [.act .startScan]) w) :=
    ⟨[], .called (.scan window) true, [.handled (.scanResult d), .called (.scan window) false],
      by decide, rfl, by decide⟩
  exact ⟨w, steps, rfl, by decide, by decide, by decide, hruns, by decide, by decide, by decide⟩

end Endpoint

end VehicleLink
