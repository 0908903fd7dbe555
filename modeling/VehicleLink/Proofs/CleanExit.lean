import VehicleLink.Proofs.OpenLink
import VehicleLink.Proofs.Readers
import VehicleLink.Proofs.ScanWindow

/-!
# What a worker leaves behind

When a worker ends, for whatever reason, it closes its link and aborts the task that reads
notifications. So no link stays open and no task goes on. A scan that it started is stopped by a
call to stop it or at the end of its window, and by nothing else: it goes on behind the worker
exactly if a window is open when the worker ends (`clean_exit_iff`, `scan_left_running`).
-/

namespace VehicleLink

namespace Deed

/-- A connection to a peripheral succeeded. -/
def opensLink (id : String) (d : Deed) : Prop := ∃ limit, d = .asked (.connect id limit) true

/-- The link to a peripheral was asked to end, or was reported to have ended. -/
def endsLink (id : String) (d : Deed) : Prop :=
  (∃ ok, d = .asked (.disconnect id) ok) ∨ d = .reached (.report (.disconnected id))

/-- A scan was started with success. -/
def startsScan (d : Deed) : Prop := d = .asked .startScan true

/-- The scan was asked to stop. -/
def stopsScan (d : Deed) : Prop := ∃ ok, d = .asked .stopScan ok

end Deed

/-- The open links are those that were opened and not ended since. -/
theorem mem_openLinks_iff (id : String) (ds : List Deed) :
    id ∈ openLinks ds ↔ Since (fun _ d => d.opensLink id) (fun d => ¬ d.endsLink id) ds := by
  induction ds using List.reverseRecOn with
  | nil => exact iff_of_false List.not_mem_nil not_since_nil
  | append_singleton ds d ih =>
    rw [openLinks_append, since_concat, ← ih]
    change id ∈ openAfter (openLinks ds) d ↔ _
    unfold openAfter
    split
    · simp [Deed.opensLink, Deed.endsLink, or_comm, eq_comm (a := id)]
    · simp [Deed.opensLink, Deed.endsLink, eq_comm (a := id)]
    · simp [Deed.opensLink, Deed.endsLink, eq_comm (a := id)]
    · rename_i hconnect hdisconnect hlost
      have hopens : ¬ d.opensLink id := fun ⟨limit, hd⟩ => hconnect id limit hd
      have hends : ¬ d.endsLink id := by
        rintro (⟨ok, hd⟩ | hd)
        · exact hdisconnect id ok hd
        · exact hlost id hd
      simp [hopens, hends]

/-- Whether a scan goes on after one deed more. -/
def scansAfter (scanning : Bool) : Deed → Bool
  | .asked .startScan true => true
  | .asked .stopScan _ => false
  | _ => scanning

/-- A scan goes on since it was started, until it was asked to stop. -/
theorem scansAfter_iff (ds : List Deed) :
    ds.foldl scansAfter false = true ↔
      Since (fun _ d => d.startsScan) (fun d => ¬ d.stopsScan) ds := by
  induction ds using List.reverseRecOn with
  | nil => exact iff_of_false Bool.false_ne_true not_since_nil
  | append_singleton ds d ih =>
    rw [List.foldl_append, since_concat, ← ih]
    change scansAfter (ds.foldl scansAfter false) d = true ↔ _
    unfold scansAfter
    split
    · simp [Deed.startsScan]
    · simp [Deed.startsScan, Deed.stopsScan]
    · rename_i hstart hstop
      have hstarts : ¬ d.startsScan := hstart
      have hstops : ¬ d.stopsScan := fun ⟨ok, hd⟩ => hstop ok hd
      simp [hstarts, hstops]

namespace Worker

variable {α : Type}

/-! ## One turn -/

/-- Requests that do not bear on the scan. -/
theorem scansAfter_closes {current : Option Peripheral} {rs : List (Request × Bool)}
    (h : Closes current rs) (scanning : Bool) :
    (asking rs).foldl scansAfter scanning = scanning := by
  cases h <;> rfl

theorem scansAfter_unread {id : String} {c : Uuid} {rs : List (Request × Bool)}
    (h : Unread id c rs) (scanning : Bool) :
    (asking rs).foldl scansAfter scanning = scanning := by
  cases h <;> rfl

/-- A scan goes on after a turn exactly if a window is open: what opens a window starts a scan, and
what closes one stops it. -/
theorem Responds.scansAfter {w : Worker α} {x : Stimulus} {rs : List (Request × Bool)}
    {es : List Event} {after : Holding} (h : Responds w x rs es after) :
    (asking rs).foldl scansAfter w.scanning = after.scanning := by
  cases h with
  | connects p closes =>
    rw [asking_append, List.foldl_append, scansAfter_closes closes]
    rfl
  | connectFails p closes =>
    rw [asking_append, List.foldl_append, scansAfter_closes closes]
    rfl
  | unknown a closes => exact scansAfter_closes closes _
  | notifyFails c p ok link unread =>
    rw [asking_append, List.foldl_append, scansAfter_unread unread]
    rfl
  | _ => rfl

variable [Adapter α]

/-- The requests by which a worker ends. -/
def exitRequests (w : Worker (Recording α)) : List (Request × Bool) :=
  w.finish.adapter.requests.drop w.adapter.requests.length

/-- A worker that ends closes its link, and makes no other request. -/
theorem exitRequests_closes (w : Worker (Recording α)) : Closes w.current w.exitRequests := by
  obtain ⟨rs, adapter, hcloses, hrs, hdrop⟩ := dropLink_closes w
  have hfinish : w.finish.adapter = adapter := congrArg (·.2.adapter) (hdrop w.outbox)
  rw [exitRequests, hfinish, requests_of_asked hrs, List.drop_left]
  exact hcloses

/-! ## Runs -/

/-- A scan goes on exactly while a window is open. -/
theorem scansAfter_run (adapter : α) (limit : Nanos) (steps : List (Step α)) :
    ((turns steps (fresh adapter limit)).flatMap Turn.deeds).foldl scansAfter false =
      ((fresh adapter limit).run steps).scanning := by
  refine run_induction (P := fun ts h =>
    (ts.flatMap Turn.deeds).foldl scansAfter false = h.scanning) rfl (fun ts t h => ?_) steps
  rw [List.flatMap_append, List.flatMap_singleton, List.foldl_append, h]
  exact t.responds.1.scansAfter

namespace Shift

/-- What happened in a shift at whose end the worker ends. -/
def deeds (x : Shift α) : List Deed := x.turns.flatMap Turn.deeds ++ asking x.worker.exitRequests

/-- The tasks behind a worker that has ended. -/
def leftReaders (x : Shift α) : Readers := x.readers.abort

end Shift

/-- Any shift of a worker, with any adapter and any streams, at whose end the worker ends. No link
that was opened was not ended since, and no task is alive. Every scan that was started was stopped
since exactly if no window is open then: the last call to scan that the adapter granted was followed
by a call to stop or by the end of its time. -/
theorem clean_exit_iff (script : Nat → List Item) (adapter : α) (limit : Nanos)
    (moves : List (Shift.Move α)) :
    let x := (Shift.new adapter limit).play script moves
    (∀ id, ¬ Since (fun _ d => d.opensLink id) (fun d => ¬ d.endsLink id) x.deeds) ∧
    x.leftReaders.alive = [] ∧
    (¬ Since (fun _ d => d.startsScan) (fun d => ¬ d.stopsScan) x.deeds ↔
      ¬ Since (fun _ t => t.startsScan) (fun t => ¬ t.endsScan) x.turns) := by
  intro x
  have hstart : x.start = fresh adapter limit := Shift.start_play script moves _
  have hturns : x.turns = turns x.steps (fresh adapter limit) := by rw [Shift.turns, hstart]
  have hworker : x.worker = (fresh adapter limit).run x.steps := by rw [Shift.worker, hstart]
  have hexit := x.worker.exitRequests_closes
  refine ⟨fun id => ?_, (Shift.tended_play script adapter limit moves).alive_abort, ?_⟩
  · have hlinks := links_run adapter limit x.steps
    rw [← hturns, ← hworker] at hlinks
    have hnone : openLinks x.deeds = [] := (hlinks.append hexit.links).ends
    rw [← mem_openLinks_iff, hnone]
    exact List.not_mem_nil
  · rw [← scansAfter_iff, Shift.deeds, List.foldl_append, scansAfter_closes hexit, hturns,
      scansAfter_run, scanning_run]

/-- A scan of an hour is started and nothing else happens before the worker ends: the scan goes
on. -/
theorem scan_left_running :
    ∃ (adapter : ScriptedAdapter) (moves : List (Shift.Move ScriptedAdapter)),
      let x := (Shift.new adapter 0).play (fun _ => []) moves
      x.worker.finish.adapter.requests = [(.startScan, true)] ∧
      Since (fun _ d => d.startsScan) (fun d => ¬ d.stopsScan) x.deeds := by
  refine ⟨{}, [.call (.scan 3600000000000)], by decide, ?_⟩
  exact ⟨[_], _, [], rfl, rfl, nofun⟩

end Worker

end VehicleLink
