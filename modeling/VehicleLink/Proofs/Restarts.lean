import VehicleLink.Proofs.RankingOrder
import VehicleLink.Proofs.StoreInStep
import VehicleLink.Proofs.Target

/-!
# The last peer across restarts

A `Session` is what one transport does from its creation on a store until it is dropped; sessions
follow one another on one store. While loads and saves succeed a session begins with the devices
that the one before it ended with, so the turns of all sessions hand on what is remembered
(`handed_on`).

A link to a device makes it recalled (`Turn.recalls_of_links`), and it stays so until a link to
another one (`Turn.recalls_kept`). The ranking puts a recalled device first, be it bonded or
observed or neither (`Ranking.order_of_recalls`), and a search asks for the first of the ranking
first (`Endpoint.act_of_recalls`). So a transport begins with the device that a link was last
established to, in whatever session that was (`last_linked_tried_first`).
-/

namespace VehicleLink

/-! ## Rankings with a recalled device -/

namespace Ranking

/-- A recalled device heads every ranking, whatever is bonded and observed. -/
theorem order_of_recalls {p : Address} {d : DeviceSet} (h : d.Recalls p) (start : String)
    (bonded observed : List Device) :
    ∃ c rest, order start bonded observed d = c :: rest ∧ c.address = p := by
  obtain ⟨hlast, hknown⟩ := h
  rcases order_cases start bonded observed d with
    ⟨hsame, hother⟩ | ⟨before, c, after, -, hc, hfront⟩
  · have hmem : p ∈ (order start bonded observed d).map (·.address) :=
      (isRanking_order.complete p).2 (.inr (.inl hknown))
    rw [hsame] at hmem
    obtain ⟨c, hc, rfl⟩ := List.mem_map.1 hmem
    exact absurd hlast (hother c hc)
  · exact ⟨c, before ++ after, hfront, Option.some.inj (hc.symm.trans hlast)⟩

end Ranking

/-! ## What recalls a device -/

namespace DeviceSet

/-- Only a link to another device makes a device not recalled. -/
theorem Recalls.noting {p : Address} {d : DeviceSet} (h : d.Recalls p) {notes : List Note}
    (hnotes : ∀ n ∈ notes, n.linked? = none) : (d.noting notes).Recalls p := by
  obtain ⟨hlast, hknown⟩ := h
  refine ⟨?_, (mem_known_noting notes).2 (.inl hknown)⟩
  have hnone : notes.filterMap Note.linked? = [] := List.filterMap_eq_nil_iff.2 hnotes
  rw [DeviceSet.noting, hnone, hlast]
  rfl

end DeviceSet

namespace Turn

open Endpoint

variable {ρ σ : Type} [Radio ρ] [DeviceStore σ] {t : Turn ρ σ} {p : Address}

/-- The turn establishes a link to a device. -/
def Links (p : Address) (t : Turn ρ σ) : Prop :=
  t.establishes = true ∧ t.after.transport.connection.peer? = some p

/-- What is noted without a link is none. -/
theorem linked_of_notes {start : String} (h : ¬ t.establishes = true) :
    ∀ n ∈ t.notes start, n.linked? = none := by
  unfold notes
  rw [if_neg h]
  split
  · split <;> simp [Note.linked?]
  · simp
  · split
    · unfold planned
      split
      · simp [Note.ofRanking, Note.linked?]
      · simp
    · simp

theorem recalls_of_links (h : t.Links p) : t.after.transport.devices.Recalls p := by
  rw [t.devices_after, notes_of_link h.1 h.2, DeviceSet.noting_linked]
  exact DeviceSet.recalls_recordConnected p _

/-- A recalled device stays so where no link to another one is established. -/
theorem recalls_kept (h : t.before.transport.devices.Recalls p) (hlinks : ∀ q, t.Links q → q = p) :
    t.after.transport.devices.Recalls p := by
  by_cases hlink : t.establishes = true
  · obtain ⟨hevent, q, hq⟩ := establishes_iff.1 hlink
    obtain ⟨w, transport, -, after, -⟩ := handles_of_event hevent
    have hpeer : t.after.transport.connection.peer? = some q := by
      rw [after]
      exact peer_onLinkUp (transport ▸ hq)
    exact hlinks q ⟨hlink, hpeer⟩ ▸ recalls_of_links ⟨hlink, hpeer⟩
  · rw [t.devices_after]
    exact h.noting (linked_of_notes hlink)

end Turn

/-! ## Where a search begins -/

namespace Endpoint

variable {ρ σ : Type} [Radio ρ] [DeviceStore σ] {p : Address}

/-- A ranking that is not empty is queued without any call. -/
theorem rankCandidates_of_ranked {w : Endpoint ρ σ} {c : Candidate} {rest : List Candidate}
    (h : w.ranked w.nameStart = c :: rest) :
    w.rankCandidates.transport.candidates = c :: rest ∧
      w.rankCandidates.transport.connection = w.transport.connection ∧
      w.rankCandidates.radio = w.radio := by
  let devices := Ranking.remember (c :: rest) w.transport.devices
  let kept := w.update fun t => { t with devices }
  let saved := if devices ≠ w.transport.devices then kept.persist else kept
  have hsaved : saved.transport.connection = w.transport.connection ∧ saved.radio = w.radio := by
    show (if _ then _ else _ : Endpoint ρ σ).transport.connection = _ ∧
      (if _ then _ else _ : Endpoint ρ σ).radio = _
    split <;> exact ⟨rfl, rfl⟩
  have hrank : Ranking.rank w.transport.settings.deviceName (Radio.bonded w.radio)
      w.transport.observed w.transport.devices = (c :: rest, devices) := by
    rw [Ranking.rank]
    exact Prod.ext h (congrArg (Ranking.remember · w.transport.devices) h)
  rw [rankCandidates, hrank]
  exact ⟨rfl, hsaved⟩

/-- A search for any device, begun while one is recalled, asks for that device first. -/
theorem connectBody_of_recalls {w : Endpoint (Logged ρ) σ} (hidle : ¬ w.transport.isBusy = true)
    (hmode : w.transport.policy.mode = .automatic) (h : w.transport.devices.Recalls p) :
    ∃ ok later, (w.connectBody none).radio.log = w.radio.log ++ (.connect p, ok) :: later := by
  have hplan : planFor none (w.queueing []).transport = .rank :=
    (planFor_eq_rank none w.transport).2 ⟨rfl, hmode⟩
  obtain ⟨c, rest, hranked, rfl⟩ :=
    Ranking.order_of_recalls h w.nameStart (Radio.bonded w.radio) w.transport.observed
  obtain ⟨hcs, hconn, hradio⟩ :=
    rankCandidates_of_ranked (w := w.queueing []) hranked
  have hbody : w.connectBody none = tryCandidates (c :: rest) (w.queueing []).rankCandidates := by
    rw [connectBody, if_neg hidle]
    change ((w.queueing []).follow (planFor none (w.queueing []).transport)).attemptNext = _
    rw [hplan, follow, attemptNext, hcs]
  obtain ⟨tried, queued, oks, hsplit, htried, -, -, hlog, hoks⟩ :=
    tried_tryCandidates (w := (w.queueing []).rankCandidates) (c :: rest)
      (hconn.trans (disconnected_of_not_busy hidle))
  obtain ⟨d, tried, rfl⟩ := List.exists_cons_of_ne_nil (htried (List.cons_ne_nil _ _))
  obtain ⟨rfl, -⟩ := List.cons.inj hsplit
  obtain ⟨⟨call, ok⟩, later, rfl, hcall, -⟩ := List.map_eq_cons_iff.1 hoks
  obtain rfl : call = .connect c.address := hcall
  exact ⟨ok, later, by rw [hbody, hlog, hradio]; rfl⟩

/-- A connect or a poll that starts a search while a device is recalled asks for it first. -/
theorem act_of_recalls {w : Endpoint (Logged ρ) σ} {a : Action}
    (ha : ranks a w.transport = true) (h : w.transport.devices.Recalls p) :
    ∃ ok later, (w.act a).radio.log = w.radio.log ++ (.connect p, ok) :: later := by
  have hmay {t : Transport} (hm : mayRank t = true) :
      t.running = true ∧ ¬ t.isBusy = true ∧ t.policy.mode = .automatic := by
    simpa [mayRank, and_assoc] using hm
  have hconnect {v : Endpoint (Logged ρ) σ} (hv : mayRank v.transport = true)
      (hrecalls : v.transport.devices.Recalls p) :
      ∃ ok later, (v.connect none).radio.log = v.radio.log ++ (.connect p, ok) :: later := by
    obtain ⟨hrun, hidle, hmode⟩ := hmay hv
    rw [connect_of_running hrun]
    exact connectBody_of_recalls hidle hmode hrecalls
  cases a with
  | connect target =>
    cases target with
    | none => exact hconnect ha h
    | some x => cases ha
  | pollAt instant =>
    obtain ⟨hdue, hm⟩ : w.transport.policy.isDue instant = true ∧ mayRank w.transport = true := by
      simpa [ranks] using ha
    obtain ⟨hrun, hidle, -⟩ := hmay hm
    let claimed := w.update fun t => { t with policy := t.policy.recordAttempt instant }
    have hpoll : w.pollAt instant = claimed.connect none :=
      pollAt_of_due (pollDue_iff.2 ⟨hrun, disconnected_of_not_busy hidle, hdue⟩)
    rw [act, hpoll]
    exact hconnect (v := claimed) hm h
  | _ => cases ha

end Endpoint

/-! ## Sessions -/

/-- The life of one transport: what it is created with, and the steps until it is dropped. -/
structure Session (ρ σ : Type) where
  settings : LinkSettings := {}
  target : Option String := none
  radio : ρ
  steps : List (Step ρ σ)

namespace Session

variable {ρ σ : Type} [Radio ρ] [DeviceStore σ]

def create (s : Session ρ σ) (store : σ) : Except LinkError (Endpoint (Logged ρ) σ) :=
  Endpoint.create s.settings s.target ⟨s.radio, []⟩ store

/-- The turns on a store; there are none if no transport can be created. -/
def turns (s : Session ρ σ) (store : σ) : List (Turn ρ σ) :=
  match s.create store with
  | .ok w => Endpoint.turns s.steps w
  | .error _ => []

/-- The store that is left behind. -/
def left (s : Session ρ σ) (store : σ) : σ :=
  match s.create store with
  | .ok w => (w.runLogged s.steps).store
  | .error _ => store

/-- The store can be loaded, takes up every set of devices other than the one before, and holds
nothing else by itself. -/
structure Served (held : σ → Except StoreError DeviceSet) (s : Session ρ σ) (store : σ) : Prop where
  loads : ∃ devices, DeviceStore.load store = .ok devices
  quiet : ∀ f, .store f ∈ s.steps → ∀ x, held (f x) = held x
  accepts : ∀ t ∈ s.turns store, t.after.transport.devices ≠ t.before.transport.devices →
    Store.accepts t.after.transport.devices t.found = true

/-- The turns of sessions that follow one another on a store. -/
def allTurns : List (Session ρ σ) → σ → List (Turn ρ σ)
  | [], _ => []
  | s :: rest, store => s.turns store ++ allTurns rest (s.left store)

/-- Every session is served by the store that the one before it left. -/
def AllServed (held : σ → Except StoreError DeviceSet) : List (Session ρ σ) → σ → Prop
  | [], _ => True
  | s :: rest, store => s.Served held store ∧ AllServed held rest (s.left store)

/-- What is remembered at the end of turns that begin with devices. -/
def devicesAfter (first : DeviceSet) (ts : List (Turn ρ σ)) : DeviceSet :=
  (ts.getLast?.map fun t => t.after.transport.devices).getD first

theorem devicesAfter_concat (first : DeviceSet) (ts : List (Turn ρ σ)) (t : Turn ρ σ) :
    devicesAfter first (ts ++ [t]) = t.after.transport.devices := by
  simp [devicesAfter]

theorem devicesAfter_append (first : DeviceSet) (ts later : List (Turn ρ σ)) :
    devicesAfter first (ts ++ later) = devicesAfter (devicesAfter first ts) later := by
  simp only [devicesAfter, List.getLast?_append]
  cases later.getLast? <;> rfl

theorem devicesAfter_turns (w : Endpoint (Logged ρ) σ) (steps : List (Step ρ σ)) :
    devicesAfter w.transport.devices (Endpoint.turns steps w) =
      (w.runLogged steps).transport.devices := by
  induction steps using List.reverseRecOn with
  | nil => rfl
  | append_singleton steps st ih =>
    obtain ⟨t, hturns, -, -, hafter⟩ := Endpoint.exists_last_turn steps st w
    rw [hturns, devicesAfter_concat, hafter]

/-- In a run every turn begins with what the turns before it remember. -/
theorem devices_of_turns {steps : List (Step ρ σ)} {w : Endpoint (Logged ρ) σ}
    {before after : List (Turn ρ σ)} {t : Turn ρ σ}
    (h : Endpoint.turns steps w = before ++ t :: after) :
    t.before.transport.devices = devicesAfter w.transport.devices before := by
  obtain ⟨first, -, rfl, hbefore, -⟩ := Endpoint.turns_split h
  rw [hbefore, devicesAfter_turns]

section

variable {held : σ → Except StoreError DeviceSet} {s : Session ρ σ} {store : σ} {first : DeviceSet}

/-- A session begins with what the store holds. -/
theorem Served.begins (h : s.Served held store) (hk : Store.Recording held)
    (hfirst : held store = .ok first) {w : Endpoint (Logged ρ) σ} (hw : s.create store = .ok w) :
    w.transport.devices = first ∧ w.store = store := by
  obtain ⟨devices, hload⟩ := h.loads
  obtain ⟨hdevices, hstore⟩ := Endpoint.create_of_loaded hw hload
  exact ⟨hdevices.trans (Except.ok.inj ((hk.load hload).symm.trans hfirst)), hstore⟩

/-- The store that a session leaves holds what was remembered at the end. -/
theorem Served.held_left (h : s.Served held store) (hk : Store.Recording held)
    (hfirst : held store = .ok first) :
    held (s.left store) = .ok (devicesAfter first (s.turns store)) := by
  rw [left, turns]
  split
  · rename_i w hw
    obtain ⟨hdevices, hstore⟩ := h.begins hk hfirst hw
    have haccepts := h.accepts
    rw [turns, hw] at haccepts
    rw [← hdevices, devicesAfter_turns]
    exact Endpoint.held_run hk (by rw [hstore, hdevices, hfirst]) h.quiet haccepts
  · exact hfirst

/-- Every turn of the sessions begins with what was remembered at the end of the turn before it, in
the same session or in an earlier one; the first with what the store held. -/
theorem handed_on (hk : Store.Recording held) {sessions : List (Session ρ σ)} {store : σ}
    {first : DeviceSet} (hfirst : held store = .ok first) (hs : AllServed held sessions store)
    {before after : List (Turn ρ σ)} {t : Turn ρ σ}
    (h : allTurns sessions store = before ++ t :: after) :
    t.before.transport.devices = devicesAfter first before := by
  induction sessions generalizing store first before with
  | nil => simp [allTurns] at h
  | cons s sessions ih =>
    obtain ⟨hserved, hrest⟩ := hs
    have hleft := hserved.held_left hk hfirst
    rw [allTurns] at h
    rcases List.append_eq_append_iff.1 h with ⟨later, rfl, hlater⟩ | ⟨later, hturns, hlater⟩
    · rw [devicesAfter_append]
      exact ih hleft hrest hlater
    · cases later with
      | nil =>
        rw [List.append_nil] at hturns
        have hnone : allTurns sessions (s.left store) = [] ++ t :: after := hlater.symm
        rw [← hturns]
        exact ih hleft hrest hnone
      | cons u later =>
        obtain ⟨rfl, -⟩ := List.cons.inj hlater
        unfold turns at hturns
        split at hturns
        · rename_i w hw
          rw [← (hserved.begins hk hfirst hw).1]
          exact devices_of_turns hturns
        · simp at hturns

/-- A device that was linked to last, in any session, is recalled. -/
theorem recalls_of_linked (hk : Store.Recording held) {sessions : List (Session ρ σ)}
    (hfirst : held store = .ok first) (hs : AllServed held sessions store) {p : Address}
    {before after : List (Turn ρ σ)} (h : allTurns sessions store = before ++ after)
    (hlinked : Since (fun _ t => t.Links p) (fun t => ∀ q, t.Links q → q = p) before) :
    (devicesAfter first before).Recalls p := by
  induction before using List.reverseRecOn generalizing after with
  | nil => exact absurd hlinked not_since_nil
  | append_singleton before t ih =>
    rw [List.append_assoc, List.singleton_append] at h
    rw [devicesAfter_concat]
    rcases (since_concat before t).1 hlinked with hlink | ⟨hlinked, hlinks⟩
    · exact Turn.recalls_of_links hlink
    · refine Turn.recalls_kept ?_ hlinks
      rw [handed_on hk hfirst hs h]
      exact ih h hlinked

/-- Sessions that have a turn begin on a store that holds something. -/
theorem exists_held (hk : Store.Recording held) {sessions : List (Session ρ σ)}
    (hs : AllServed held sessions store) {t : Turn ρ σ} (ht : t ∈ allTurns sessions store) :
    ∃ first, held store = .ok first := by
  cases sessions with
  | nil => cases ht
  | cons s sessions =>
    obtain ⟨first, hload⟩ := hs.1.loads
    exact ⟨first, hk.load hload⟩

/-- Over a store whose loads and saves succeed, in whatever sessions on it: after a link to `p` was
established, and while none to another device is, every connect or poll that starts a search for any
device asks the radio for `p` first. -/
theorem last_linked_tried_first (hk : Store.Recording held) {sessions : List (Session ρ σ)}
    {store : σ} (hs : AllServed held sessions store) {p : Address}
    {before after : List (Turn ρ σ)} {t : Turn ρ σ}
    (h : allTurns sessions store = before ++ t :: after)
    (hlinked : Since (fun _ t => t.Links p) (fun t => ∀ q, t.Links q → q = p) before)
    {a : Action} (hstep : t.step = .act a) (hranks : Endpoint.ranks a t.before.transport = true) :
    ∃ ok, t.calls.head? = some (.connect p, ok) := by
  obtain ⟨first, hfirst⟩ := exists_held hk hs (t := t) (by simp [h])
  have hrecalls : t.before.transport.devices.Recalls p :=
    handed_on hk hfirst hs h ▸ recalls_of_linked hk hfirst hs h hlinked
  obtain ⟨ok, later, hlog⟩ := Endpoint.act_of_recalls hranks hrecalls
  rw [← Turn.after_of_step hstep] at hlog
  exact ⟨ok, by rw [Turn.calls_of_log hlog]; rfl⟩

/-- A consumer links to a device that no scan and no ranking ever named. The next transport on the
file that this has written, with another device bonded, begins with it. -/
theorem last_linked_tried_first_after_restart :
    ∃ (sessions : List (Session Radio.Simulated Store.File))
      (before : List (Turn Radio.Simulated Store.File))
      (t : Turn Radio.Simulated Store.File),
      allTurns sessions { path := { steps := ["data", "devices.cbor"] } } = before ++ [t] ∧
      t.step = .act (.connect none) ∧
      (Radio.bonded t.before.radio).map Device.address = [⟨0, 0, 0, 0, 0, 10⟩] ∧
      t.before.transport.observed = [] ∧
      ∃ ok, t.calls.head? = some (.connect ⟨0, 0, 0, 0, 0, 11⟩, ok) := by
  let radio : Radio.Simulated := { behaviour := { autoConnect := false } }
  let bonded : Device :=
    { address := ⟨0, 0, 0, 0, 0, 10⟩, name := some "OPENXC-VI", bonded := true }
  let first : Session Radio.Simulated Store.File :=
    { radio, steps := [.act .start, .act (.connect (some ⟨0, 0, 0, 0, 0, 11⟩)),
        .act (.handle .linkUp)] }
  let second : Session Radio.Simulated Store.File :=
    { settings := { deviceName := "OPENXC" }, radio := { radio with bonded := [bonded] }
      steps := [.act .start, .act (.connect none)] }
  let store : Store.File := { path := { steps := ["data", "devices.cbor"] } }
  let opened : Endpoint (Logged Radio.Simulated) Store.File :=
    .fresh first.settings none {} ⟨first.radio, []⟩ store
  let linked : Turn Radio.Simulated Store.File :=
    ⟨opened.start.connect (some ⟨0, 0, 0, 0, 0, 11⟩), .act (.handle .linkUp)⟩
  let stored := first.left store
  let remembered := devicesAfter {} (first.turns store)
  let reopened : Endpoint (Logged Radio.Simulated) Store.File :=
    .fresh second.settings none remembered ⟨second.radio, []⟩ stored
  let began : Turn Radio.Simulated Store.File := ⟨reopened, .act .start⟩
  let searched : Turn Radio.Simulated Store.File := ⟨reopened.start, .act (.connect none)⟩
  have hfirst : first.Served Store.File.load store := ⟨⟨_, rfl⟩, by simp [first], by decide⟩
  -- What the file gives is known from the law, without reading it.
  have hload : stored.load = .ok remembered := hfirst.held_left Store.recording_file rfl
  have hsearch : second.turns stored = [began, searched] := by
    have hcreate : second.create stored = .ok reopened := by
      rw [Session.create, Endpoint.create, show DeviceStore.load stored = _ from hload]
      rfl
    rw [turns, hcreate]
    rfl
  have hsecond : second.Served Store.File.load stored := by
    refine ⟨⟨_, hload⟩, by simp [second], ?_⟩
    rw [hsearch]
    decide
  have hserved : AllServed Store.File.load [first, second] store := ⟨hfirst, hsecond, trivial⟩
  have hturns : allTurns [first, second] store = (first.turns store ++ [began]) ++ [searched] := by
    rw [allTurns, allTurns, show second.turns (first.left store) = _ from hsearch]
    rfl
  have hlinked : Since (fun _ t => Turn.Links ⟨0, 0, 0, 0, 0, 11⟩ t)
      (fun t => ∀ q, t.Links q → q = ⟨0, 0, 0, 0, 0, 11⟩) (first.turns store ++ [began]) := by
    refine ⟨(first.turns store).take 2, linked, [began], rfl, ⟨by decide, by decide⟩, ?_⟩
    intro t ht q hq
    rw [List.mem_singleton.1 ht] at hq
    exact absurd hq.1 (by decide)
  have h := last_linked_tried_first Store.recording_file hserved hturns hlinked rfl (by decide)
  exact ⟨_, _, searched, hturns, rfl, by decide, by decide, h⟩

end

end Session

end VehicleLink
