import VehicleLink.Proofs.FileStore
import VehicleLink.Proofs.Remembered
import VehicleLink.Radio.Simulated

/-!
# The store in step

What a store holds is read by a function that gives what a load that succeeds gives, and the devices
of a save after the store has taken it up (`Store.Recording`). Nothing is asked of a save that
fails: it may leave anything behind, as a save to a file can.

A turn changes the store exactly if other devices are remembered than before, so as long as saves
succeed the store holds what is remembered (`Turn.held_after`), which is what the run gave to note
(`store_in_step`).
-/

namespace VehicleLink

namespace Store

variable {σ : Type} [DeviceStore σ]

/-- Whether a store takes up a save. -/
def accepts (devices : DeviceSet) (store : σ) : Bool := (DeviceStore.save devices store).1.isOk

/-- A reading of what a store holds: what a load gives that succeeds, and what was saved once the
store has taken it up. -/
structure Recording (held : σ → Except StoreError DeviceSet) : Prop where
  load {store : σ} {devices : DeviceSet} (h : DeviceStore.load store = .ok devices) :
    held store = .ok devices
  save {devices : DeviceSet} {store : σ} (h : accepts devices store = true) :
    held (DeviceStore.save devices store).2 = .ok devices

/-- Memory holds what is loaded from it. -/
theorem recording_memory : Recording (DeviceStore.load (σ := Memory)) where
  load h := h
  save _ := rfl

/-- A file holds what is loaded from it, whatever else is in the tree and wherever the path leads. -/
theorem recording_file : Recording File.load where
  load h := h
  save {devices store} h := by
    rcases hsave : File.save devices store with ⟨e | u, after⟩
    · have hrefused : (File.save devices store).1.isOk = true := h
      rw [hsave] at hrefused
      cases hrefused
    · show File.load (File.save devices store).2 = _
      rw [hsave]
      exact File.load_of_save_ok hsave

/-- A store that can be told to fail holds what the store inside it does. -/
theorem Recording.fallible {held : σ → Except StoreError DeviceSet} (h : Recording held) :
    Recording fun s : Fallible σ => held s.store where
  load {s devices} hload := by
    obtain ⟨store, failLoad, failSave, saves⟩ := s
    cases failLoad with
    | true => cases hload
    | false => exact h.load hload
  save {devices s} haccepts := by
    obtain ⟨store, failLoad, failSave, saves⟩ := s
    cases failSave with
    | true => cases haccepts
    | false => exact h.save haccepts

end Store

namespace Turn

open Endpoint

variable {ρ σ : Type} [Radio ρ] [DeviceStore σ]

omit [Radio ρ] [DeviceStore σ] in
/-- A store that holds the same whatever it does by itself is found as it was left. -/
theorem held_found {α : Type} {held : σ → α} (t : Turn ρ σ)
    (hquiet : ∀ f, t.step = .store f → ∀ x, held (f x) = held x) :
    held t.found = held t.before.store := by
  unfold found
  split
  · rename_i f hstep
    exact hquiet f hstep _
  · rfl

/-- A store that held what was remembered holds what is remembered, if it took up what is new. -/
theorem held_after {held : σ → Except StoreError DeviceSet} (t : Turn ρ σ)
    (hk : Store.Recording held) (hquiet : ∀ f, t.step = .store f → ∀ x, held (f x) = held x)
    (haccepts : t.after.transport.devices ≠ t.before.transport.devices →
      Store.accepts t.after.transport.devices t.found = true)
    (hbefore : held t.before.store = .ok t.before.transport.devices) :
    held t.after.store = .ok t.after.transport.devices := by
  rw [store_after]
  by_cases hsame : t.after.transport.devices = t.before.transport.devices
  · rw [if_pos hsame, t.held_found hquiet, hbefore, hsame]
  · rw [if_neg hsame, hk.save (haccepts hsame)]

end Turn

namespace Endpoint

variable {ρ σ : Type} [Radio ρ] [DeviceStore σ] {s : LinkSettings} {w : Endpoint (Logged ρ) σ}

theorem create_of_loaded {target : Option String} {radio : ρ} {store : σ} {w : Endpoint ρ σ}
    {devices : DeviceSet} (h : create s target radio store = .ok w)
    (hload : DeviceStore.load store = .ok devices) :
    w.transport.devices = devices ∧ w.store = store := by
  unfold create at h
  rw [hload] at h
  split at h
  · cases h
  · split at h
    · cases h
    · cases h
      exact ⟨rfl, rfl⟩

section

variable {held : σ → Except StoreError DeviceSet} {steps : List (Step ρ σ)}

/-- A store that holds what is remembered goes on to do so while it takes up every other set. -/
theorem held_run (hk : Store.Recording held) (hw : held w.store = .ok w.transport.devices)
    (hquiet : ∀ f, .store f ∈ steps → ∀ x, held (f x) = held x)
    (haccepts : ∀ t ∈ turns steps w, t.after.transport.devices ≠ t.before.transport.devices →
      Store.accepts t.after.transport.devices t.found = true) :
    held (w.runLogged steps).store = .ok (w.runLogged steps).transport.devices := by
  induction steps using List.reverseRecOn with
  | nil => exact hw
  | append_singleton steps st ih =>
    obtain ⟨t, hturns, hstep, hbefore, hafter⟩ := exists_last_turn steps st w
    have hheld : held t.before.store = .ok t.before.transport.devices := by
      rw [hbefore]
      refine ih (fun f hf => hquiet f (List.mem_append_left _ hf)) fun t' ht' => ?_
      exact haccepts t' (hturns ▸ List.mem_append_left _ ht')
    rw [← hafter]
    exact t.held_after hk (fun f hf => hquiet f (by simp [← hstep, hf]))
      (haccepts t (by simp [hturns])) hheld

/-- Over a store that could be loaded and takes up every save, what is remembered after any run of
a transport that was created is what the store holds, and both are the loaded devices with what the
run gave to note. Only a set of devices that is not the one before has to be taken up. -/
theorem store_in_step (hk : Store.Recording held) {target : Option String} {radio : Logged ρ}
    {store : σ} {loaded : DeviceSet} (hw : create s target radio store = .ok w)
    (hload : DeviceStore.load store = .ok loaded)
    (hquiet : ∀ f, .store f ∈ steps → ∀ x, held (f x) = held x)
    (haccepts : ∀ t ∈ turns steps w, t.after.transport.devices ≠ t.before.transport.devices →
      Store.accepts t.after.transport.devices t.found = true) :
    let u := w.runLogged steps
    let noted := notes s.deviceName (turns steps w)
    held u.store = .ok u.transport.devices ∧ u.transport.devices = loaded.noting noted ∧
    ∀ a, a ∈ u.transport.devices.known ↔
      a ∈ loaded.known ∨ ∃ n ∈ noted, n.known? = some a := by
  intro u noted
  obtain ⟨hdevices, hstore⟩ := create_of_loaded hw hload
  have hheld : held w.store = .ok w.transport.devices := by
    rw [hstore, hdevices, hk.load hload]
  have hnoted : u.transport.devices = loaded.noting noted :=
    hdevices ▸ devices_run (sound_create hw) steps
  exact ⟨held_run hk hheld hquiet haccepts, hnoted,
    fun a => hnoted ▸ DeviceSet.mem_known_noting noted⟩

end

/-- A device that a scan saw heads the first ranking; the attempt at it fails, and a link to another
one is established. Both are remembered and stored, the other one as the last: by a store in memory,
and by a file below a directory that the first save makes. -/
theorem store_in_step_of_scan :
    (∃ (w : Endpoint (Logged Radio.Simulated) Store.Memory)
      (steps : List (Step Radio.Simulated Store.Memory)),
      create {} none ⟨{ behaviour := { autoConnect := false } }, []⟩ ({} : Store.Memory) = .ok w ∧
      notes Gatt.deviceName (turns steps w) =
        [.seen ⟨0, 0, 0, 0, 0, 10⟩, .led ⟨0, 0, 0, 0, 0, 10⟩, .linked ⟨0, 0, 0, 0, 0, 11⟩] ∧
      (w.runLogged steps).store.devices = (w.runLogged steps).transport.devices ∧
      (w.runLogged steps).transport.devices =
        ({} : DeviceSet).noting (notes Gatt.deviceName (turns steps w))) ∧
    ∃ (w : Endpoint (Logged Radio.Simulated) Store.File)
      (steps : List (Step Radio.Simulated Store.File)),
      create {} none ⟨{ behaviour := { autoConnect := false } }, []⟩
        ({ path := { steps := ["data", "devices.cbor"] } } : Store.File) = .ok w ∧
      notes Gatt.deviceName (turns steps w) =
        [.seen ⟨0, 0, 0, 0, 0, 10⟩, .led ⟨0, 0, 0, 0, 0, 10⟩, .linked ⟨0, 0, 0, 0, 0, 11⟩] ∧
      (w.runLogged steps).store.load = .ok (w.runLogged steps).transport.devices ∧
      (w.runLogged steps).transport.devices =
        ({} : DeviceSet).noting (notes Gatt.deviceName (turns steps w)) := by
  let radio : Logged Radio.Simulated := ⟨{ behaviour := { autoConnect := false } }, []⟩
  let seen : Device := { address := ⟨0, 0, 0, 0, 0, 10⟩, name := none, services := [Gatt.service] }
  let actions : List Action :=
    [.start, .handle (.scanResult seen), .connect none, .handle .linkDown,
      .connect (some ⟨0, 0, 0, 0, 0, 11⟩), .handle .linkUp]
  constructor
  · let steps : List (Step Radio.Simulated Store.Memory) := actions.map .act
    have hw : create {} none radio ({} : Store.Memory) = .ok (.fresh {} none {} radio {}) := rfl
    have hquiet : ∀ f, .store f ∈ steps → ∀ x, DeviceStore.load (f x) = DeviceStore.load x := by
      simp [steps, actions]
    have h := store_in_step Store.recording_memory hw rfl hquiet fun _ _ _ => rfl
    exact ⟨_, steps, hw, by decide, Except.ok.inj h.1, h.2.1⟩
  · let steps : List (Step Radio.Simulated Store.File) := actions.map .act
    let store : Store.File := { path := { steps := ["data", "devices.cbor"] } }
    have hw : create {} none radio store = .ok (.fresh {} none {} radio store) := rfl
    have hquiet : ∀ f, .store f ∈ steps → ∀ x, (f x).load = x.load := by
      simp [steps, actions]
    have h := store_in_step Store.recording_file hw rfl hquiet (by decide)
    exact ⟨_, steps, hw, by decide, h.1, h.2.1⟩

end Endpoint

end VehicleLink
