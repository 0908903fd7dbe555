import VehicleLink.Proofs.RefusedScans
import VehicleLink.Proofs.Summaries

/-!
# What scans have seen

The devices that were observed are a log with one entry for each address: where an address was first
reported since the last request for a scan, its latest report stands (`LatestReports`). A report
writes its own entry, a request for a scan clears the log, whether it is accepted or not, and nothing
else changes it (`Turn.observed_after`).
-/

namespace VehicleLink

/-- A device as it was last reported: since then there was no other report of its address. -/
def LastReported (d : Device) : List Device → Prop :=
  Since (fun _ x => x = d) fun x => x.address ≠ d.address

/-- Of reports in order, one entry for each address: its latest report, at the place of its first
one. -/
structure LatestReports (reports observed : List Device) : Prop where
  distinct : (observed.map (·.address)).Nodup
  ordered : (observed.map (·.address)).Pairwise fun a b =>
    (reports.map (·.address)).idxOf a < (reports.map (·.address)).idxOf b
  latest : ∀ d, d ∈ observed ↔ LastReported d reports

namespace LatestReports

variable {reports observed : List Device}

theorem nil : LatestReports [] [] :=
  ⟨List.nodup_nil, .nil, fun _ => iff_of_false (List.not_mem_nil) not_since_nil⟩

theorem mem_addresses_of_report {a : Address} (ha : a ∈ reports.map (·.address)) :
    ∃ d, LastReported d reports ∧ d.address = a := by
  induction reports using List.reverseRecOn with
  | nil => cases ha
  | append_singleton reports d ih =>
    by_cases hd : d.address = a
    · exact ⟨d, .of_last rfl, hd⟩
    · have hearlier : a ∈ reports.map (·.address) := by simpa [Ne.symm hd] using ha
      obtain ⟨e, he, hea⟩ := ih hearlier
      exact ⟨e, he.later (by rwa [hea]), hea⟩

/-- An address has an entry exactly if it was reported. -/
theorem mem_addresses_iff (h : LatestReports reports observed) {a : Address} :
    a ∈ observed.map (·.address) ↔ a ∈ reports.map (·.address) := by
  constructor
  · intro ha
    obtain ⟨d, hd, rfl⟩ := List.mem_map.1 ha
    obtain ⟨before, _, after, rfl, rfl, -⟩ := (h.latest d).1 hd
    simp
  · intro ha
    obtain ⟨d, hd, rfl⟩ := mem_addresses_of_report ha
    exact List.mem_map_of_mem ((h.latest d).2 hd)

/-- Places of addresses stay when another report comes. -/
theorem ordered_before (h : LatestReports reports observed) (d : Device) :
    (observed.map (·.address)).Pairwise fun a b =>
      ((reports ++ [d]).map (·.address)).idxOf a < ((reports ++ [d]).map (·.address)).idxOf b := by
  refine h.ordered.imp_of_mem fun {a b} ha hb hlt => ?_
  rwa [List.map_append, List.idxOf_append_of_mem (h.mem_addresses_iff.1 ha),
    List.idxOf_append_of_mem (h.mem_addresses_iff.1 hb)]

/-- One report more. -/
theorem observe (h : LatestReports reports observed) (d : Device) :
    LatestReports (reports ++ [d]) (Transport.observe d observed) where
  distinct := Transport.nodup_observe h.distinct
  latest e := by
    rw [Transport.mem_observe h.distinct, LastReported, since_concat, ← LastReported, ← h.latest]
    exact or_congr eq_comm (and_congr_right fun _ => ne_comm)
  ordered := by
    rw [Transport.addresses_observe]
    split
    · exact h.ordered_before d
    · rename_i hnew
      rw [List.pairwise_append]
      refine ⟨h.ordered_before d, List.pairwise_singleton _ _, fun a ha b hb => ?_⟩
      -- the new address stands behind all that were reported before
      have hreported : a ∈ reports.map (·.address) := h.mem_addresses_iff.1 ha
      have hfirst : d.address ∉ reports.map (·.address) := fun hd => hnew (h.mem_addresses_iff.2 hd)
      rw [List.mem_singleton.1 hb, List.map_append, List.idxOf_append_of_mem hreported,
        List.idxOf_append_of_notMem hfirst]
      have hplace := List.idxOf_lt_length_iff.2 hreported
      omega

end LatestReports

/-! ## Turns -/

/-- A call that asks for a scan. -/
def Call.asksScan : Call → Bool
  | .scan _ => true
  | _ => false

theorem Call.asksScan_of_isScan {c : Call} (h : c.isScan = false) : c.asksScan = false := by
  cases c with
  | scan => cases h
  | _ => rfl

namespace Turn

open Endpoint

variable {ρ σ : Type} [Radio ρ] [DeviceStore σ] {t : Turn ρ σ}

/-- Whether the turn asks for a scan. -/
def asksScan (t : Turn ρ σ) : Bool := t.calls.any (·.1.asksScan)

omit [Radio ρ] [DeviceStore σ] in
/-- The device that a scan reports in the turn. -/
def sighting? (t : Turn ρ σ) : Option Device :=
  match t.event? with
  | some (.scanResult d) => some d
  | _ => none

omit [Radio ρ] [DeviceStore σ] in
theorem sighting?_of_other (h : ∀ d, t.event? ≠ some (.scanResult d)) : t.sighting? = none := by
  unfold sighting?
  split
  · rename_i d hd
    exact absurd hd (h d)
  · rfl

/-- The turns since the last one that asked for a scan. -/
def sinceScan (ts : List (Turn ρ σ)) : List (Turn ρ σ) :=
  ts.foldl (fun window t => if t.asksScan then [] else window ++ [t]) []

theorem sinceScan_concat (ts : List (Turn ρ σ)) (t : Turn ρ σ) :
    sinceScan (ts ++ [t]) = if t.asksScan then [] else sinceScan ts ++ [t] := by
  unfold sinceScan
  rw [List.foldl_append]
  rfl

/-- The reports of the last scan. -/
def reports (ts : List (Turn ρ σ)) : List Device := (sinceScan ts).filterMap sighting?

theorem asksScan_of_calls {rest : List (Call × Bool)} (first : List (Call × Bool))
    (h : t.calls = first ++ rest) (hrest : ∀ c ∈ rest, c.1.isScan = false) :
    t.asksScan = first.any (·.1.asksScan) := by
  have hnone : rest.any (·.1.asksScan) = false :=
    List.any_eq_false.2 fun c hc => by simp [Call.asksScan_of_isScan (hrest c hc)]
  rw [asksScan, h, List.any_append, hnone, Bool.or_false]

/-- What a consumer does clears the observed devices exactly if it asks for a scan. -/
theorem observed_of_act {a : Action} (ha : a.byConsumer = true) (hstep : t.step = .act a) :
    t.after.transport.observed = if t.asksScan then [] else t.before.transport.observed := by
  have hlooks := looks_act ha t.before
  rw [← after_of_step hstep] at hlooks
  generalize hafter : t.after = w' at hlooks
  cases hlooks with
  | beside hno h =>
    subst hafter
    obtain ⟨rest, hcalls, hrest⟩ := calls_of_beside (List.append_nil _).symm h
    rw [asksScan_of_calls [] hcalls hrest]
    exact h.observed
  | stops running h =>
    subst hafter
    obtain ⟨rest, hcalls, hrest⟩ := calls_of_beside rfl h
    rw [asksScan_of_calls [_] hcalls hrest]
    exact h.observed
  | scans =>
    have hcalls : t.calls = [(.scan t.before.transport.settings.scanWindow, _)] ++ [] :=
      calls_of_log (by rw [hafter]; rfl)
    rw [asksScan_of_calls _ hcalls (by simp)]
    rfl
  | lists hranks hfound h =>
    subst hafter
    have hlog : t.before.listing.radio.log = t.before.radio.log ++ [] := (List.append_nil _).symm
    obtain ⟨rest, hcalls, hrest⟩ := calls_of_beside hlog h
    rw [asksScan_of_calls [] hcalls hrest]
    exact h.observed
  | searches hranks hnone hidle h =>
    subst hafter
    obtain ⟨rest, hcalls, hrest⟩ := calls_of_beside rfl h
    rw [asksScan_of_calls [_] hcalls hrest]
    exact h.observed

/-- No event asks for a scan. -/
theorem asksScan_of_event {e : Event} (h : t.event? = some e) : t.asksScan = false := by
  cases t.scanDone with
  | keeps calls event scanning link ranking => exact asksScan_of_calls [] rfl calls
  | completes event calls scanning idle => rw [asksScan, calls]; rfl
  | asks accepted rest event calls others scanning ranking => simp [h] at event
  | stops accepted rest event calls others scanning idle link =>
    exact asksScan_of_calls [(.stopScan, accepted)] calls others

/-- A report writes its own entry, a request for a scan clears them all, and nothing else changes
one. -/
theorem observed_after (t : Turn ρ σ) :
    t.after.transport.observed =
      if t.asksScan then []
      else t.sighting?.toList.foldl (fun l d => Transport.observe d l)
        t.before.transport.observed := by
  cases t.kind with
  | still idle event transport log =>
    have hcalls : t.calls = [] := calls_of_log (by rw [log, List.append_nil])
    rw [asksScan, hcalls, sighting?, event, transport]
    rfl
  | acts a ha hstep =>
    rw [sighting?, event?_of_consumer ha hstep, observed_of_act ha hstep]
    rfl
  | handles e w idle event transport radio after =>
    rw [asksScan_of_event event, after, ← transport, if_neg Bool.false_ne_true]
    by_cases hresult : ∃ d, e = .scanResult d
    · obtain ⟨d, rfl⟩ := hresult
      obtain ⟨devices, store, hsame⟩ := w.surroundings_onScanResult d
      rw [sighting?, event]
      exact congrArg Surroundings.observed hsame
    · have hother : ∀ d, e ≠ .scanResult d := fun d heq => hresult ⟨d, heq⟩
      rw [sighting?_of_other (by simpa [event] using hother)]
      exact (kept_handle hother w).1

end Turn

/-! ## Runs -/

namespace Endpoint

open Turn

variable {ρ σ : Type} [Radio ρ] [DeviceStore σ] {s : LinkSettings} {w : Endpoint (Logged ρ) σ}

/-- Any run of a transport that was created: what it has observed is the log of the reports that it
handled since it last asked for a scan. -/
theorem observed_are_latest {target : Option String} {radio : Logged ρ} {store : σ}
    (hw : create s target radio store = .ok w) (steps : List (Step ρ σ)) :
    LatestReports (reports (turns steps w)) (w.runLogged steps).transport.observed := by
  have hfresh : w.transport.observed = [] := by
    obtain ⟨a, devices, -, rfl⟩ := create_eq hw
    rfl
  induction steps using List.reverseRecOn with
  | nil =>
    change LatestReports [] w.transport.observed
    rw [hfresh]
    exact .nil
  | append_singleton steps st ih =>
    obtain ⟨t, hturns, -, hbefore, hafter⟩ := exists_last_turn steps st w
    have hobserved := observed_after t
    rw [← hbefore] at ih
    rw [hturns, ← hafter, hobserved, reports, sinceScan_concat]
    cases hasks : t.asksScan with
    | true => exact .nil
    | false =>
      simp only [Bool.false_eq_true, if_false, List.filterMap_append]
      change LatestReports (reports (turns steps w) ++ [t].filterMap sighting?) _
      cases hsees : t.sighting? with
      | none => simpa [hsees] using ih
      | some d => simpa [hsees] using ih.observe d

/-- Three devices are reported, two of them again with other contents, while a link is looked for and
comes up. A report from before the scan is gone. -/
theorem observed_are_latest_of_repeated :
    ∃ (w : Endpoint (Logged Radio.Simulated) Store.Memory)
      (steps : List (Step Radio.Simulated Store.Memory)) (d e f d' f' : Device),
      create {} none ⟨{}, []⟩ {} = .ok w ∧ d' ≠ d ∧ f' ≠ f ∧
      (turns steps w).filterMap sighting? = [e, d, e, f, d', f'] ∧
      reports (turns steps w) = [d, e, f, d', f'] ∧
      (w.runLogged steps).transport.observed = [d', e, f'] ∧
      LatestReports [d, e, f, d', f'] [d', e, f'] := by
  let device (n : UInt8) (name : String) : Device := { address := ⟨0, 0, 0, 0, 0, n⟩, name }
  let d := device 1 "OpenXC-VI-1"
  let e := device 2 "OpenXC-VI-2"
  let f := device 3 "lamp"
  let d' := { device 1 "OpenXC-VI-1" with bonded := true, services := [Gatt.service] }
  let f' := device 3 "lantern"
  let sees (d : Device) : Step Radio.Simulated Store.Memory := .act (.handle (.scanResult d))
  let w : Endpoint (Logged Radio.Simulated) Store.Memory := fresh {} none {} ⟨{}, []⟩ {}
  have hw : create {} none ⟨{}, []⟩ {} = .ok w := rfl
  let steps : List (Step Radio.Simulated Store.Memory) :=
    [.act .start, sees e, .act .startScan, sees d, sees e, sees f, .act (.connect none), sees d',
      .act (.handle .linkUp), sees f']
  have hreports : reports (turns steps w) = [d, e, f, d', f'] := by decide
  have hobserved : (w.runLogged steps).transport.observed = [d', e, f'] := by decide
  have hlog := observed_are_latest hw steps
  rw [hreports, hobserved] at hlog
  exact ⟨w, steps, d, e, f, d', f', hw, by decide, by decide, by decide, hreports, hobserved, hlog⟩

end Endpoint

end VehicleLink
