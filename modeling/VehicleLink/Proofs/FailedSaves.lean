import VehicleLink.Proofs.StoreInStep

/-!
# Failed saves

Here a save that fails leaves what the store holds (`Store.Keeping`). It is not repeated: the store
goes on holding what the last save that succeeded was of (`held_eq_lastSaved`), and the next save is
made when other devices are remembered than before, whatever the store holds.

So a link that is established while the store takes up saves reaches the store, unless its peer was
recalled before and the save that was to tell the store so had failed (`linked_peer_held_iff`). It
can happen that it does not (`linked_peer_not_held`).
-/

namespace VehicleLink

namespace Store

variable {σ : Type} [DeviceStore σ]

/-- What a store holds whose saves are all or nothing: one that fails leaves it. -/
structure Keeping (held : σ → DeviceSet) : Prop
    extends Recording fun store => .ok (held store) where
  refuse {devices : DeviceSet} {store : σ} (h : accepts devices store = false) :
    held (DeviceStore.save devices store).2 = held store

/-- A save that succeeds replaces what the store holds, and one that fails leaves it. -/
theorem Keeping.held_save {held : σ → DeviceSet} (hk : Keeping held) (devices : DeviceSet)
    (store : σ) : held (DeviceStore.save devices store).2 =
      if accepts devices store then devices else held store := by
  cases haccepts : accepts devices store with
  | true => exact Except.ok.inj (hk.save haccepts)
  | false => exact hk.refuse haccepts

theorem keeping_memory : Keeping Memory.devices where
  toRecording := recording_memory
  refuse h := by cases h

theorem Keeping.fallible {held : σ → DeviceSet} (h : Keeping held) :
    Keeping fun s : Fallible σ => held s.store where
  toRecording := h.toRecording.fallible
  refuse {devices s} hrefuses := by
    obtain ⟨store, failLoad, failSave, saves⟩ := s
    cases failSave with
    | true => rfl
    | false => exact h.refuse hrefuses

end Store

namespace Turn

open Endpoint

variable {ρ σ : Type} [Radio ρ] [DeviceStore σ]

/-- Whether the turn saved what is remembered: it is not what was remembered before, and the store
took it up. -/
def saves (t : Turn ρ σ) : Bool :=
  t.after.transport.devices ≠ t.before.transport.devices &&
    Store.accepts t.after.transport.devices t.found

/-- What a store holds is changed by saves alone, where it does not change by itself. -/
theorem held_after_saves {held : σ → DeviceSet} (t : Turn ρ σ) (hk : Store.Keeping held)
    (hquiet : ∀ f, t.step = .store f → ∀ x, held (f x) = held x) :
    held t.after.store = if t.saves then t.after.transport.devices else held t.before.store := by
  rw [store_after, saves, ← t.held_found hquiet]
  by_cases hsame : t.after.transport.devices = t.before.transport.devices
  · simp [hsame]
  · rw [if_neg hsame, hk.held_save]
    simp [hsame]

end Turn

namespace Endpoint

variable {ρ σ : Type} [Radio ρ] [DeviceStore σ] {s : LinkSettings} {w : Endpoint (Logged ρ) σ}

/-- What the last save that succeeded was of; without any, `first`. -/
def lastSaved (first : DeviceSet) (ts : List (Turn ρ σ)) : DeviceSet :=
  ((ts.filter Turn.saves).getLast?.map fun t => t.after.transport.devices).getD first

theorem lastSaved_concat (first : DeviceSet) (ts : List (Turn ρ σ)) (t : Turn ρ σ) :
    lastSaved first (ts ++ [t]) =
      if t.saves then t.after.transport.devices else lastSaved first ts := by
  cases h : t.saves <;> simp [lastSaved, h]

variable {held : σ → DeviceSet} {steps : List (Step ρ σ)}

/-- A store holds what the last save that succeeded was of. -/
theorem held_eq_lastSaved (hk : Store.Keeping held)
    (hquiet : ∀ f, .store f ∈ steps → ∀ x, held (f x) = held x) :
    held (w.runLogged steps).store = lastSaved (held w.store) (turns steps w) := by
  induction steps using List.reverseRecOn with
  | nil => rfl
  | append_singleton steps st ih =>
    obtain ⟨t, hturns, hstep, hbefore, hafter⟩ := exists_last_turn steps st w
    rw [← hafter, t.held_after_saves hk fun f hf => hquiet f (by simp [← hstep, hf]), hbefore, hturns,
      lastSaved_concat, ih fun f hf => hquiet f (List.mem_append_left _ hf)]

/-- After a link to `p` was established while the store took up saves, the store recalls `p` unless
the transport had recalled it before and the last save that succeeded was of devices that do not.
What a new transport on the store remembers is what the store holds. -/
theorem linked_peer_held_iff (hk : Store.Keeping held) {target : Option String}
    {radio : Logged ρ} {store : σ} (hw : create s target radio store = .ok w)
    (hquiet : ∀ f, .store f ∈ steps → ∀ x, held (f x) = held x) {t : Turn ρ σ} {p : Address}
    (hbefore : t.before = w.runLogged steps) (hlink : t.establishes = true)
    (hpeer : t.after.transport.connection.peer? = some p)
    (haccepts : Store.accepts t.after.transport.devices t.before.store = true) :
    ((held t.after.store).Recalls p ↔
      (t.before.transport.devices.Recalls p →
        (lastSaved (held store) (turns steps w)).Recalls p)) ∧
    ∀ (s' : LinkSettings) (target' : Option String) (radio' : Logged ρ) (devices : DeviceSet)
      (w' : Endpoint (Logged ρ) σ), create s' target' radio' t.after.store = .ok w' →
      DeviceStore.load t.after.store = .ok devices →
      w'.transport.devices = held t.after.store := by
  have hstore : w.store = store := by
    obtain ⟨a, devices, -, rfl⟩ := create_eq hw
    rfl
  have hdevices : t.after.transport.devices = t.before.transport.devices.recordConnected p := by
    rw [t.devices_after, Turn.notes_of_link hlink hpeer, DeviceSet.noting_linked]
  have hsaved : held t.after.store = if t.saves then t.after.transport.devices
      else lastSaved (held store) (turns steps w) := by
    rw [t.held_after_saves hk fun f hf => absurd hf (Turn.step_ne_of_link hlink f), hbefore,
      held_eq_lastSaved hk hquiet, hstore]
  refine ⟨?_, fun s' target' radio' devices w' hw' hload => ?_⟩
  · by_cases hrecalls : t.before.transport.devices.Recalls p
    · have hsaves : t.saves = false := by
        simp [Turn.saves, hdevices, DeviceSet.recordConnected_eq_iff.2 hrecalls]
      rw [hsaved, hsaves, if_neg (by simp)]
      simp [hrecalls]
    · have hsaves : t.saves = true := by
        rw [Turn.saves, Turn.found_of_link hlink, haccepts, hdevices]
        simp [DeviceSet.recordConnected_eq_iff, hrecalls]
      rw [hsaved, hsaves, if_pos rfl, hdevices]
      simp [hrecalls, DeviceSet.recalls_recordConnected]
  · rw [(create_of_loaded hw' hload).1]
    exact (Except.ok.inj (hk.load hload)).symm

/-- The save of a link to one device fails. A link to another one, once the store takes up saves,
is stored. -/
theorem linked_peer_held_after_failure :
    ∃ (w : Endpoint (Logged Radio.Simulated) (Store.Fallible Store.Memory))
      (steps : List (Step Radio.Simulated (Store.Fallible Store.Memory)))
      (t : Turn Radio.Simulated (Store.Fallible Store.Memory)),
      create {} none ⟨{ behaviour := { autoConnect := false } }, []⟩
        ({ store := {}, failSave := true } : Store.Fallible Store.Memory) = .ok w ∧
      t.before = w.runLogged steps ∧ t.establishes = true ∧
      t.after.transport.connection.peer? = some ⟨0, 0, 0, 0, 0, 11⟩ ∧
      Store.accepts t.after.transport.devices t.before.store = true ∧
      t.before.store.store.devices = {} ∧
      t.after.store.store.devices.Recalls ⟨0, 0, 0, 0, 0, 11⟩ := by
  let radio : Logged Radio.Simulated := ⟨{ behaviour := { autoConnect := false } }, []⟩
  let store : Store.Fallible Store.Memory := { store := {}, failSave := true }
  let steps : List (Step Radio.Simulated (Store.Fallible Store.Memory)) :=
    [.act .start, .act (.connect (some ⟨0, 0, 0, 0, 0, 10⟩)), .act (.handle .linkUp),
      .act (.handle .linkDown), .store fun x => { x with failSave := false },
      .act (.connect (some ⟨0, 0, 0, 0, 0, 11⟩))]
  have hw : create {} none radio store = .ok _ := rfl
  have hquiet : ∀ f, Step.store f ∈ steps → ∀ x, (f x).store.devices = x.store.devices := by
    simp [steps]
  have h := linked_peer_held_iff Store.keeping_memory.fallible hw hquiet
    (t := ⟨_, .act (.handle .linkUp)⟩) rfl (by decide) (p := ⟨0, 0, 0, 0, 0, 11⟩) (by decide)
    (by decide)
  refine ⟨_, steps, _, hw, rfl, by decide, by decide, by decide, by decide, h.1.2 ?_⟩
  decide

/-- The save of a link fails, and the link ends. A second link to the same device, once the store
takes up saves, changes nothing that is remembered: the store is not told, and a new transport on
the store does not know the device. -/
theorem linked_peer_not_held :
    ∃ (w : Endpoint (Logged Radio.Simulated) (Store.Fallible Store.Memory))
      (steps : List (Step Radio.Simulated (Store.Fallible Store.Memory)))
      (t : Turn Radio.Simulated (Store.Fallible Store.Memory)),
      create {} none ⟨{ behaviour := { autoConnect := false } }, []⟩
        ({ store := {}, failSave := true } : Store.Fallible Store.Memory) = .ok w ∧
      (∀ f, .store f ∈ steps → ∀ x, (f x).store.devices = x.store.devices) ∧
      t.before = w.runLogged steps ∧ t.establishes = true ∧
      t.after.transport.connection.peer? = some ⟨0, 0, 0, 0, 0, 10⟩ ∧
      Store.accepts t.after.transport.devices t.before.store = true ∧
      ¬ t.after.store.store.devices.Recalls ⟨0, 0, 0, 0, 0, 10⟩ ∧
      ∃ w' : Endpoint (Logged Radio.Simulated) (Store.Fallible Store.Memory),
        create {} none ⟨{}, []⟩ t.after.store = .ok w' ∧ w'.transport.devices = {} := by
  let radio : Logged Radio.Simulated := ⟨{ behaviour := { autoConnect := false } }, []⟩
  let store : Store.Fallible Store.Memory := { store := {}, failSave := true }
  let steps : List (Step Radio.Simulated (Store.Fallible Store.Memory)) :=
    [.act .start, .act (.connect (some ⟨0, 0, 0, 0, 0, 10⟩)), .act (.handle .linkUp),
      .act (.handle .linkDown), .store fun x => { x with failSave := false },
      .act (.connect (some ⟨0, 0, 0, 0, 0, 10⟩))]
  have hw : create {} none radio store = .ok _ := rfl
  refine ⟨_, steps, ⟨_, .act (.handle .linkUp)⟩, hw, by simp [steps], rfl, by decide, by decide,
    by decide, by decide, _, rfl, ?_⟩
  decide

end Endpoint

end VehicleLink
