import VehicleLink.Proofs.Sound
import VehicleLink.Proofs.Surroundings
import Mathlib.Data.List.Induction

/-!
# What is remembered

Three things are worth remembering (`Note`): a vehicle interface that a scan saw, a link that was
established, and the head of a ranking. What is remembered after all of them is told by the list
alone (`DeviceSet.noting`), a piece of it at a time (`noting_append`).

Every operation leaves the remembered devices and the store, or takes over what there is to note
and saves it if that changed anything (`learn`). So a turn remembers what it notes
(`Turn.devices_after`), and saves exactly where other devices are remembered than before
(`Turn.store_after`); a run remembers the notes of its turns (`devices_run`).
-/

namespace VehicleLink

/-! ## Sets of devices -/

namespace AddressSet

theorem insertInto_of_mem {a : Address} {l : List Address}
    (hl : l.Pairwise fun a b => a.key < b.key) (h : a ∈ l) : insertInto a l = l := by
  induction l with
  | nil => cases h
  | cons b rest ih =>
    obtain ⟨hfirst, hrest⟩ := List.pairwise_cons.1 hl
    rw [insertInto]
    split
    · rfl
    · rename_i hne
      have hmem : a ∈ rest := (List.mem_cons.1 h).resolve_left hne
      rw [if_neg (Nat.lt_asymm (hfirst a hmem)), ih hrest hmem]

theorem insert_of_mem {a : Address} {s : AddressSet} (h : a ∈ s) : s.insert a = s := by
  obtain ⟨l, hl⟩ := s
  rw [insert]
  congr
  exact insertInto_of_mem hl h

end AddressSet

/-- Something that is worth remembering. -/
inductive Note where
  /-- A scan saw a vehicle interface that is not bonded. -/
  | seen (a : Address)
  /-- A link was established. -/
  | linked (a : Address)
  /-- A ranking was made that begins with the address. -/
  | led (a : Address)
  deriving DecidableEq

namespace Note

def linked? : Note → Option Address
  | linked a => some a
  | _ => none

def led? : Note → Option Address
  | led a => some a
  | _ => none

/-- The address that becomes known. -/
def known? : Note → Option Address
  | seen a => some a
  | linked a => some a
  | led _ => none

/-- What a ranking gives to note. -/
def ofRanking (ranked : List Candidate) : List Note :=
  (ranked.head?.map fun c => led c.address).toList

end Note

namespace DeviceSet

variable {a : Address} {d : DeviceSet}

theorem remember_of_known (h : a ∈ d.known) : d.remember a = d := by
  rw [remember, AddressSet.insert_of_mem h]

/-- The device is known, and a link was established to it last. -/
def Recalls (a : Address) (d : DeviceSet) : Prop := d.lastConnected = some a ∧ a ∈ d.known

instance (a : Address) (d : DeviceSet) : Decidable (d.Recalls a) :=
  inferInstanceAs (Decidable (_ ∧ _))

theorem recalls_recordConnected (a : Address) (d : DeviceSet) : (d.recordConnected a).Recalls a :=
  ⟨rfl, AddressSet.mem_insert.2 (.inl rfl)⟩

/-- A link to a device changes nothing exactly if it was established to this device last. -/
theorem recordConnected_eq_iff : d.recordConnected a = d ↔ d.Recalls a := by
  constructor
  · intro h
    exact h ▸ recalls_recordConnected a d
  · rintro ⟨hlast, hknown⟩
    rw [recordConnected, AddressSet.insert_of_mem hknown, ← hlast]

theorem newlyConnected_iff : d.newlyConnected a = true ↔ d.recordConnected a ≠ d := by
  rw [ne_eq, recordConnected_eq_iff, newlyConnected, Recalls, not_and_or]
  simp [or_comm]

/-- What is remembered after all that was worth it, and nothing is forgotten: the device that was
linked to last or, without any, the one that was remembered before or else the one that the first
ranking began with; and every device that was seen or linked to. -/
def noting (notes : List Note) (d : DeviceSet) : DeviceSet where
  lastConnected := (notes.filterMap Note.linked?).getLast?.or
    (d.lastConnected.or (notes.filterMap Note.led?).head?)
  known := (notes.filterMap Note.known?).foldl (fun s a => s.insert a) d.known

theorem noting_nil (d : DeviceSet) : d.noting [] = d := by
  simp [noting]

theorem noting_append (notes later : List Note) (d : DeviceSet) :
    d.noting (notes ++ later) = (d.noting notes).noting later := by
  simp [noting, List.getLast?_append, List.head?_append, Option.or_assoc]

/-- Nothing is forgotten, and nothing else becomes known. -/
theorem mem_known_noting (notes : List Note) :
    a ∈ (d.noting notes).known ↔ a ∈ d.known ∨ ∃ n ∈ notes, n.known? = some a := by
  have hfold (l : List Address) (s : AddressSet) :
      a ∈ l.foldl (fun s a => s.insert a) s ↔ a ∈ s ∨ a ∈ l := by
    induction l generalizing s with
    | nil => simp
    | cons b l ih => grind [AddressSet.mem_insert]
  rw [noting, hfold, List.mem_filterMap]

theorem noting_seen (a : Address) (d : DeviceSet) : d.noting [.seen a] = d.remember a := by
  simp [noting, remember, Note.linked?, Note.led?, Note.known?]

theorem noting_linked (a : Address) (d : DeviceSet) :
    d.noting [.linked a] = d.recordConnected a := rfl

theorem noting_ofRanking (ranked : List Candidate) (d : DeviceSet) :
    d.noting (Note.ofRanking ranked) = Ranking.remember ranked d := by
  obtain ⟨last, known⟩ := d
  cases ranked with
  | nil => exact (noting_nil _).trans (by cases last <;> rfl)
  | cons c rest => cases last <;> rfl

end DeviceSet

namespace Endpoint

variable {ρ σ : Type}

/-! ## What is kept -/

/-- The remembered devices, and the store that they are kept in. -/
def memory (w : Endpoint ρ σ) : DeviceSet × σ := (w.transport.devices, w.store)

theorem Beside.memory [Radio ρ] {w w' : Endpoint ρ σ} (h : Beside w w') : w'.memory = w.memory :=
  congrArg (fun s => (s.devices, s.store)) h.surroundings

theorem memory_endScan [Radio ρ] (w : Endpoint ρ σ) : w.endScan.memory = w.memory := by
  unfold endScan
  split <;> rfl

/-! ## Operations that learn -/

section

variable [DeviceStore σ]

/-- Takes over what the notes say, and saves it if it differs from what was remembered. -/
def learn (notes : List Note) (m : DeviceSet × σ) : DeviceSet × σ :=
  let devices := m.1.noting notes
  (devices, if devices = m.1 then m.2 else (DeviceStore.save devices m.2).2)

theorem learn_of_eq {notes : List Note} {m : DeviceSet × σ} (h : m.1.noting notes = m.1) :
    learn notes m = m := by
  rw [learn, h, if_pos rfl]

theorem learn_of_ne {notes : List Note} {m : DeviceSet × σ} (h : m.1.noting notes ≠ m.1) :
    learn notes m = (m.1.noting notes, (DeviceStore.save (m.1.noting notes) m.2).2) := by
  rw [learn, if_neg h]

theorem learn_nil (m : DeviceSet × σ) : learn [] m = m := learn_of_eq (DeviceSet.noting_nil _)

/-- What a report gives to note; the names of vehicle interfaces begin with `start`. -/
def reported (start : String) (e : Event) (t : Transport) : List Note :=
  match e with
  | .scanResult d =>
    if d.isVehicleInterface start && !d.bonded then [.seen d.address] else []
  | .linkUp =>
    match t.connection with
    | .connecting p false => [.linked p]
    | _ => []
  | _ => []

theorem memory_onScanResult (d : Device) (w : Endpoint ρ σ) :
    (w.onScanResult d).memory =
      learn (reported w.nameStart (.scanResult d) w.transport) w.memory := by
  let seen := w.update fun t => { t with discovered := t.discovered.insert d.address d.summary }
  have hseen : (w.onScanResult d).memory =
      (if d.isVehicleInterface w.nameStart && !d.bonded &&
          d.address ∉ w.transport.devices.known then
        (seen.update fun t => { t with devices := t.devices.remember d.address }).persist
      else seen).memory := rfl
  rw [hseen, reported]
  cases d.isVehicleInterface w.nameStart && !d.bonded with
  | false =>
    rw [if_neg (by simp), if_neg (by simp), learn_nil]
    rfl
  | true =>
    rw [if_pos rfl]
    by_cases hknown : d.address ∈ w.transport.devices.known
    · rw [if_neg (by simp [hknown]), learn_of_eq]
      · rfl
      · exact (DeviceSet.noting_seen ..).trans (DeviceSet.remember_of_known hknown)
    · rw [if_pos (by simp [hknown]), learn_of_ne]
      · rw [DeviceSet.noting_seen]
        rfl
      · intro h
        have hlater : d.address ∈ (w.memory.1.noting [.seen d.address]).known := by
          rw [DeviceSet.noting_seen]
          exact AddressSet.mem_insert.2 (.inl rfl)
        rw [h] at hlater
        exact hknown hlater

/-- A link that was established is saved if it is one to another device than the last. -/
theorem learn_linked (p : Address) (m : DeviceSet × σ) :
    learn [.linked p] m = (m.1.recordConnected p,
      if m.1.newlyConnected p then (DeviceStore.save (m.1.recordConnected p) m.2).2 else m.2) := by
  rw [learn, DeviceSet.noting_linked]
  by_cases hold : m.1.recordConnected p = m.1
  · have hno : ¬ m.1.newlyConnected p = true := fun h => DeviceSet.newlyConnected_iff.1 h hold
    rw [if_pos hold, if_neg hno]
  · rw [if_neg hold, if_pos (DeviceSet.newlyConnected_iff.2 hold)]

variable [Radio ρ] (w : Endpoint ρ σ)

theorem memory_onLinkUp :
    w.onLinkUp.memory = learn (reported w.nameStart .linkUp w.transport) w.memory := by
  have hup := greeted_onLinkUp w
  generalize w.onLinkUp = w' at hup ⊢
  unfold reported
  cases hup with
  | beside hno h =>
    have hnothing : (match w.transport.connection with
        | .connecting p false => [Note.linked p]
        | _ => []) = [] := by
      split
      · rename_i p hc
        exact absurd hc (hno p)
      · rfl
    rw [h.memory, hnothing, learn_nil]
  | @linked u w' p hc same air h =>
    have hmemory : u.memory = learn [.linked p] w.memory := by
      rw [learn_linked]
      exact congrArg (fun s => (s.devices, s.store)) same
    rw [hc, ← hmemory]
    exact h.memory.trans (memory_endScan u)

/-- The link that comes up is one to the peer of the attempt. -/
theorem peer_onLinkUp {w : Endpoint ρ σ} {p : Address}
    (h : w.transport.connection = .connecting p false) :
    w.onLinkUp.transport.connection.peer? = some p := by
  have hup := linkUpDone_onLinkUp w
  generalize w.onLinkUp = w' at hup ⊢
  cases hup with
  | unexpected hno => simp [h, Connection.isConnecting] at hno
  | cancelled q hc => cases h.symm.trans hc
  | @kept u q hc opened =>
    cases h.symm.trans hc
    change u.transport.connection.peer? = _
    rw [opened.connection]
    rfl
  | dropped q hc opened refused dropped =>
    cases h.symm.trans hc
    rw [dropped.connection]
    rfl

theorem memory_handle (e : Event) :
    (w.handle e).memory = learn (reported w.nameStart e w.transport) w.memory := by
  cases e with
  | scanResult d => exact memory_onScanResult d w
  | linkUp => exact memory_onLinkUp w
  | scanComplete =>
    refine Eq.trans ?_ (learn_nil w.memory).symm
    exact congrArg (fun s => (s.devices, s.store)) w.surroundings_onScanComplete
  | linkDown => exact (beside_onLinkDown w).memory.trans (learn_nil _).symm
  | servicesDiscovered success =>
    exact (beside_onServicesDiscovered w success).memory.trans (learn_nil _).symm
  | writeComplete success => exact (beside_onWriteComplete w success).memory.trans (learn_nil _).symm
  | received fragment => exact (beside_onReceived w fragment).memory.trans (learn_nil _).symm

theorem memory_listing :
    w.listing.memory = learn (Note.ofRanking (w.ranked w.nameStart)) w.memory := by
  rw [learn, DeviceSet.noting_ofRanking]
  rfl

/-- What an action of a consumer gives to note. -/
def planned (start : String) (a : Action) : List Note :=
  if ranks a w.transport then Note.ofRanking (w.ranked start) else []

omit [DeviceStore σ] in
theorem planned_of_not {start : String} {a : Action} (h : ranks a w.transport = false) :
    w.planned start a = [] := by
  rw [planned, h]
  rfl

theorem memory_act {a : Action} (ha : a.byConsumer = true) :
    (w.act a).memory = learn (w.planned w.nameStart a) w.memory := by
  have hlooks := looks_act ha w
  generalize w.act a = w' at hlooks ⊢
  cases hlooks with
  | beside hno h => rw [planned_of_not w hno, learn_nil, h.memory]
  | stops running h =>
    rw [planned_of_not w rfl, learn_nil, h.memory]
    rfl
  | scans =>
    rw [planned_of_not w rfl, learn_nil]
    rfl
  | lists hranks hfound h => rw [planned, if_pos hranks, h.memory, memory_listing]
  | searches hranks hnone hidle h =>
    rw [planned, if_pos hranks, hnone, Note.ofRanking, List.head?_nil]
    exact h.memory.trans (learn_nil w.memory).symm

end

end Endpoint

/-! ## Turns -/

namespace Turn

open Endpoint

variable {ρ σ : Type} [Radio ρ] [DeviceStore σ] {t : Turn ρ σ}

/-- What the turn gives to note, where `start` is how the names of vehicle interfaces begin. -/
def notes (start : String) (t : Turn ρ σ) : List Note :=
  if t.establishes then (t.after.transport.connection.peer?.map Note.linked).toList
  else
    match t.event? with
    | some (.scanResult d) =>
      if d.isVehicleInterface start && !d.bonded then [.seen d.address] else []
    | some _ => []
    | none =>
      match t.step with
      | .act a => t.before.planned start a
      | _ => []

/-- The store that the turn finds: that before it, as it changed by itself. -/
def found (t : Turn ρ σ) : σ :=
  match t.step with
  | .store f => f t.before.store
  | _ => t.before.store

theorem notes_of_event {start : String} {e : Event} (h : t.event? = some e) :
    t.notes start = reported start e t.before.transport := by
  unfold notes
  split
  · rename_i hestablishes
    obtain ⟨hup, p, hc⟩ := establishes_iff.1 hestablishes
    obtain rfl : e = .linkUp := by simpa [h] using hup
    obtain ⟨w, transport, -, after, -⟩ := handles_of_event h
    have hpeer : t.after.transport.connection.peer? = some p := by
      rw [after]
      exact peer_onLinkUp (transport ▸ hc)
    rw [hpeer, reported, hc]
    rfl
  · rename_i hno
    rw [h]
    cases e with
    | linkUp =>
      unfold reported
      dsimp only
      split
      · rename_i p hc
        exact absurd (establishes_iff.2 ⟨h, p, hc⟩) hno
      · rfl
    | _ => rfl

theorem notes_of_no_event {start : String} (h : t.event? = none) :
    t.notes start = match t.step with
      | .act a => t.before.planned start a
      | _ => [] := by
  have hno : ¬ t.establishes = true := by
    simp [establishes_iff, h]
  rw [notes, if_neg hno, h]

theorem notes_of_link {start : String} {p : Address} (hlink : t.establishes = true)
    (hpeer : t.after.transport.connection.peer? = some p) : t.notes start = [.linked p] := by
  rw [notes, if_pos hlink, hpeer]
  rfl

/-- A link is not established by a change of the store. -/
theorem step_ne_of_link (hlink : t.establishes = true) (f : σ → σ) : t.step ≠ .store f := by
  obtain ⟨hevent, -⟩ := establishes_iff.1 hlink
  intro hstep
  rw [event?, hstep] at hevent
  cases hevent

theorem found_of_link (hlink : t.establishes = true) : t.found = t.before.store := by
  unfold found
  split
  · rename_i f hstep
    exact absurd hstep (step_ne_of_link hlink f)
  · rfl

theorem memory_after (t : Turn ρ σ) :
    t.after.memory = learn (t.notes t.before.nameStart) (t.before.transport.devices, t.found) := by
  obtain ⟨w, st⟩ := t
  cases st with
  | radio f =>
    rw [notes_of_no_event rfl]
    exact (learn_nil w.memory).symm
  | store f =>
    rw [notes_of_no_event rfl]
    exact (learn_nil (w.transport.devices, f w.store)).symm
  | act a =>
    cases ha : a.byConsumer with
    | true =>
      rw [notes_of_no_event (event?_of_consumer ha rfl)]
      exact memory_act w ha
    | false =>
      cases a with
      | handle e =>
        rw [notes_of_event rfl]
        exact memory_handle w e
      | raise e =>
        rw [notes_of_no_event rfl]
        exact (learn_nil w.memory).symm
      | next =>
        cases hinbox : w.inbox with
        | nil =>
          have hw : after ⟨w, .act .next⟩ = w := handleNext_nil hinbox
          rw [notes_of_no_event (by simp [event?, hinbox]), hw]
          exact (learn_nil w.memory).symm
        | cons e rest =>
          have hw : after ⟨w, .act .next⟩ = ({ w with inbox := rest }).handle e :=
            handleNext_cons hinbox
          rw [notes_of_event (by simp [event?, hinbox]; rfl), hw]
          exact memory_handle { w with inbox := rest } e
      | _ => cases ha

theorem devices_after (t : Turn ρ σ) :
    t.after.transport.devices =
      t.before.transport.devices.noting (t.notes t.before.nameStart) :=
  congrArg Prod.fst t.memory_after

/-- A turn saves what is remembered, and only where that is not what was remembered before. -/
theorem store_after (t : Turn ρ σ) :
    t.after.store =
      if t.after.transport.devices = t.before.transport.devices then t.found
      else (DeviceStore.save t.after.transport.devices t.found).2 := by
  rw [devices_after]
  exact congrArg Prod.snd t.memory_after

end Turn

namespace Endpoint

variable {ρ σ : Type} [Radio ρ] [DeviceStore σ] {s : LinkSettings} {w : Endpoint (Logged ρ) σ}

/-- What the turns of a run give to note. -/
def notes (start : String) (ts : List (Turn ρ σ)) : List Note := ts.flatMap (Turn.notes start)

theorem notes_concat (start : String) (ts : List (Turn ρ σ)) (t : Turn ρ σ) :
    notes start (ts ++ [t]) = notes start ts ++ t.notes start := by
  simp [notes]

theorem devices_run (h : Sound s w.transport) (steps : List (Step ρ σ)) :
    (w.runLogged steps).transport.devices =
      w.transport.devices.noting (notes s.deviceName (turns steps w)) := by
  induction steps using List.reverseRecOn with
  | nil => exact (DeviceSet.noting_nil _).symm
  | append_singleton steps st ih =>
    obtain ⟨t, hturns, -, hbefore, hafter⟩ := exists_last_turn steps st w
    have hsound : Sound s (w.runLogged steps).transport := sound_run h _
    have hstart : t.before.nameStart = s.deviceName := by
      rw [nameStart, hbefore, hsound.settings]
    rw [← hafter, t.devices_after, hstart, hbefore, ih, hturns, notes_concat,
      DeviceSet.noting_append]

end Endpoint

end VehicleLink
