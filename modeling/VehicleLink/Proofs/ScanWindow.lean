import VehicleLink.Proofs.WorkerRun
import VehicleLink.Proofs.Turns
import VehicleLink.Worker.Scripted

/-!
# The scan window

A window is open since a call to scan that the adapter granted, unless it ran out or a call to stop
came after it, and sightings are passed on only while one is open. That a window ended is reported
when it runs out, and also when a scan is refused.

A refusal leaves a window that is open as it is. So the report means that no window is open, and
sightings come only between a granted scan and the next report or call to stop, exactly if no scan
is refused while a window is open (`scan_windows_told_iff`); `ended_window_stays_open` is a run
where one is.
-/

namespace VehicleLink

namespace Worker

variable {α : Type}

/-! ## One turn -/

/-- What a stimulus does to the scan window. -/
inductive Scans (w : Worker α) (x : Stimulus) (rs : List (Request × Bool)) (es : List Event) :
    Bool → Prop
  | opens (d : Nanos) (call : x = .call (.scan d)) (hrs : rs = [(.startScan, true)])
      (hes : es = []) : Scans w x rs es true
  | refused (d : Nanos) (call : x = .call (.scan d)) (hrs : rs = [(.startScan, false)])
      (hes : es = [.scanComplete]) : Scans w x rs es w.scanning
  | stops (call : x = .call .stopScan) (hes : es = []) : Scans w x rs es false
  | runsOut (hx : x = .scanOver) (hes : es = [.scanComplete]) : Scans w x rs es false
  | keeps (scan : ∀ d, x ≠ .call (.scan d)) (stop : x ≠ .call .stopScan)
      (window : x = .scanOver → w.scanning = false) (complete : .scanComplete ∉ es)
      (result : ∀ d, .scanResult d ∈ es → w.scanning = true) : Scans w x rs es w.scanning

theorem Responds.scans {w : Worker α} {x : Stimulus} {rs : List (Request × Bool)} {es : List Event}
    {after : Holding} (h : Responds w x rs es after) : Scans w x rs es after.scanning := by
  cases h with
  | scanStarts d => exact .opens d rfl rfl rfl
  | scanRefused d => exact .refused d rfl rfl rfl
  | scanStops ok window => exact .stops rfl rfl
  | noScan window =>
    rw [holding_scanning, window]
    exact .stops rfl rfl
  | scanEnds ok window => exact .runsOut rfl rfl
  | noWindow window => exact .keeps nofun nofun (fun _ => window) (by simp) (by simp)
  | sees id d he window => exact .keeps nofun nofun nofun (by simp) fun _ _ => window
  | _ => exact .keeps nofun nofun nofun (by simp) (by simp)

variable [Adapter α]

namespace Turn

/-- The turn is a call to scan that the adapter granted. -/
def startsScan (t : Turn α) : Prop :=
  (∃ d, t.stimulus = .call (.scan d)) ∧ (.startScan, true) ∈ t.requests

/-- The turn is a call to scan that the adapter refused. -/
def refusesScan (t : Turn α) : Prop :=
  (∃ d, t.stimulus = .call (.scan d)) ∧ (.startScan, false) ∈ t.requests

/-- The turn is a call to stop scanning, or the end of the time for it. -/
def endsScan (t : Turn α) : Prop := t.stimulus = .call .stopScan ∨ t.stimulus = .scanOver

theorem scans (t : Turn α) : Scans t.before t.stimulus t.requests t.events t.after.scanning :=
  t.responds.1.scans

/-- A window is open after a turn that opens one, and after any that leaves it open. -/
theorem scanning_iff (t : Turn α) :
    t.after.scanning = true ↔ t.startsScan ∨ t.before.scanning = true ∧ ¬ t.endsScan := by
  have h := t.scans
  unfold startsScan endsScan
  generalize t.after.scanning = scanning at h ⊢
  cases h with
  | opens d call hrs hes => simp [call, hrs]
  | refused d call hrs hes => simp [call, hrs]
  | stops call hes => simp [call]
  | runsOut hx hes => simp [hx]
  | keeps scan stop window complete result =>
    have hover (hw : t.before.scanning = true) : t.stimulus ≠ .scanOver :=
      fun hx => by rw [window hx] at hw; cases hw
    simpa [scan, stop] using hover

/-- The end of a window is reported when it ran out, and when a scan was refused. -/
theorem complete_cases {t : Turn α} (h : .scanComplete ∈ t.events) :
    t.refusesScan ∧ t.after.scanning = t.before.scanning ∨ t.after.scanning = false := by
  have hs := t.scans
  unfold refusesScan
  generalize t.after.scanning = scanning at hs ⊢
  cases hs with
  | opens d call hrs hes => simp [hes] at h
  | refused d call hrs hes => exact .inl ⟨⟨⟨d, call⟩, by simp [hrs]⟩, rfl⟩
  | stops call hes => simp [hes] at h
  | runsOut hx hes => exact .inr rfl
  | keeps scan stop window complete result => exact absurd h complete

theorem complete_of_refuses {t : Turn α} (h : t.refusesScan) :
    .scanComplete ∈ t.events ∧ t.after.scanning = t.before.scanning := by
  obtain ⟨⟨d, hcall⟩, hrefused⟩ := h
  have hs := t.scans
  generalize t.after.scanning = scanning at hs ⊢
  cases hs with
  | opens d call hrs hes => simp [hrs] at hrefused
  | refused d call hrs hes => exact ⟨by simp [hes], rfl⟩
  | stops call hes => simp [hcall] at call
  | runsOut hx hes => simp [hcall] at hx
  | keeps scan stop window complete result => exact absurd hcall (scan d)

theorem scanning_of_result {t : Turn α} {d : Device} (h : .scanResult d ∈ t.events) :
    t.before.scanning = true := by
  have hs := t.scans
  generalize t.after.scanning = scanning at hs
  cases hs with
  | keeps scan stop window complete result => exact result d h
  | _ => simp_all

/-- The turn neither reports the end of a window nor is a call to stop scanning. -/
def leavesWindow (t : Turn α) : Prop := .scanComplete ∉ t.events ∧ t.stimulus ≠ .call .stopScan

end Turn

/-! ## Runs -/

theorem scanning_run (adapter : α) (limit : Nanos) (steps : List (Step α)) :
    ((fresh adapter limit).run steps).scanning = true ↔
      Since (fun _ t => t.startsScan) (fun t => ¬ t.endsScan)
        (turns steps (fresh adapter limit)) := by
  refine run_induction (P := fun ts h => h.scanning = true ↔
    Since (fun _ t => t.startsScan) (fun t => ¬ t.endsScan) ts) ?_ (fun ts t h => ?_) steps
  · exact iff_of_false Bool.false_ne_true not_since_nil
  · rw [since_concat, ← h]
    exact t.scanning_iff

/-- As long as no scan is refused in an open window, one that is open was neither reported to have
ended nor stopped. -/
theorem told_run (adapter : α) (limit : Nanos) (steps : List (Step α))
    (hr : ∀ t ∈ turns steps (fresh adapter limit), t.refusesScan → t.before.scanning = false)
    (hs : ((fresh adapter limit).run steps).scanning = true) :
    Since (fun _ t => t.startsScan) Turn.leavesWindow (turns steps (fresh adapter limit)) := by
  refine run_induction (P := fun ts h =>
    (∀ t ∈ ts, t.refusesScan → t.before.scanning = false) → h.scanning = true →
      Since (fun _ t => t.startsScan) Turn.leavesWindow ts)
    (by simp [fresh]) (fun ts t ih hr hs => ?_) steps hr hs
  rcases t.scanning_iff.1 hs with hstart | ⟨hbefore, hends⟩
  · exact .of_last hstart
  · have hts := ih (fun u hu => hr u (List.mem_append_left _ hu)) hbefore
    refine hts.later ⟨fun hcomplete => ?_, fun hstop => hends (.inl hstop)⟩
    rcases t.complete_cases hcomplete with ⟨hrefused, -⟩ | hclosed
    · rw [hr t (by simp) hrefused] at hbefore
      cases hbefore
    · exact absurd hs (by simp [hclosed])

/-- Any run of a worker, with any adapter. A window is open since a granted scan that no call to
stop and no end of its time came after, and sightings are passed on only while one is open. That
every report of the end of a window leaves none open, and that every sighting comes since a granted
scan that no such report and no call to stop came after, holds of a run exactly if no scan is
refused in it while a window is open. -/
theorem scan_windows_told_iff (adapter : α) (limit : Nanos) (steps : List (Step α)) :
    let ts := turns steps (fresh adapter limit)
    (((fresh adapter limit).run steps).scanning = true ↔
      Since (fun _ t => t.startsScan) (fun t => ¬ t.endsScan) ts) ∧
    (∀ t ∈ ts, ∀ d, .scanResult d ∈ t.events → t.before.scanning = true) ∧
    ((∀ t ∈ ts, .scanComplete ∈ t.events → t.after.scanning = false) ∧
        (∀ before t after, ts = before ++ t :: after → ∀ d, .scanResult d ∈ t.events →
          Since (fun _ u => u.startsScan) Turn.leavesWindow before) ↔
      ∀ t ∈ ts, t.refusesScan → t.before.scanning = false) := by
  intro ts
  refine ⟨scanning_run adapter limit steps, fun t _ d => Turn.scanning_of_result, ?_, fun hr => ?_⟩
  · rintro ⟨hcomplete, -⟩ t ht hrefused
    obtain ⟨htold, hsame⟩ := Turn.complete_of_refuses hrefused
    exact hsame ▸ hcomplete t ht htold
  · refine ⟨fun t ht htold => ?_, fun before t after hsplit d hresult => ?_⟩
    · rcases Turn.complete_cases htold with ⟨hrefused, hsame⟩ | hclosed
      · exact hsame.trans (hr t ht hrefused)
      · exact hclosed
    · obtain ⟨first, hfirst, hrun⟩ := turns_split hsplit
      have hbefore : ((fresh adapter limit).run first).scanning = true := by
        rw [hrun]
        exact Turn.scanning_of_result hresult
      rw [← hfirst]
      refine told_run adapter limit first (fun u hu => hr u ?_) hbefore
      rw [hsplit, ← hfirst]
      exact List.mem_append_left _ hu

/-- A scan is granted, and a second one refused: the report that the window ended leaves it open,
and a sighting is passed on behind it. -/
theorem ended_window_stays_open :
    ∃ (adapter : ScriptedAdapter) (steps : List (Step ScriptedAdapter)),
      let ts := turns steps (fresh adapter 0)
      ts.map Turn.requests = [[(.startScan, true)], [(.startScan, false)], []] ∧
      ts.map Turn.events =
        [[], [.scanComplete], [.scanResult { address := ⟨0, 0, 0, 0, 0, 10⟩, name := none }]] ∧
      ts.map (fun t => t.after.scanning) = [true, true, true] := by
  let adapter : ScriptedAdapter :=
    { peripherals := [{ id := "a", address := ⟨0, 0, 0, 0, 0, 10⟩ }] }
  let steps : List (Step ScriptedAdapter) :=
    [.stimulus (.call (.scan 5)), .adapter fun a => { a with startScan := false },
      .stimulus (.call (.scan 5)), .stimulus (.report (.discovered "a"))]
  exact ⟨adapter, steps, by decide, by decide, by decide⟩

end Worker

end VehicleLink
