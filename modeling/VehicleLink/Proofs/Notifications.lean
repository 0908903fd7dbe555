import VehicleLink.Proofs.Readers
import VehicleLink.Proofs.Turns
import VehicleLink.Worker.Scripted

/-!
# Notifications

What a worker passes on comes from the link that is open, on which a call to enable notifications
succeeded, with nothing since that ended the link or enabled others (`reads_run`). Of each stream
that was opened it passes on the values of the subscribed characteristic among the items that were
read, in their order and each of them once (`passes_play`).
-/

namespace VehicleLink

namespace Worker

/-- The bytes that an event passes on. -/
def value? : Event → Option (List UInt8)
  | .received bytes => some bytes
  | _ => none

/-- The values of the subscribed characteristic among the items of a stream. -/
def values (s : Subscription) (items : List Item) : List (List UInt8) :=
  (items.filter (·.characteristic = s.characteristic)).map Item.bytes

section

variable {α : Type} {w : Worker α} {x : Stimulus} {rs : List (Request × Bool)} {es : List Event}
  {after : Holding}

/-- Only a notification of what is subscribed is passed on. -/
theorem Responds.received {bytes : List UInt8} (h : Responds w x rs es after)
    (hes : .received bytes ∈ es) :
    ∃ id c, x = .notified id c bytes ∧ w.subscription = some ⟨id, c⟩ ∧ es = [.received bytes] := by
  cases h with
  | delivers id c bytes' received reads =>
    obtain rfl : bytes = bytes' := by simpa using hes
    exact ⟨id, c, rfl, reads, rfl⟩
  | _ => simp at hes

theorem Responds.filterMap_value (h : Responds w x rs es after)
    (hx : ∀ id c bytes, x ≠ .notified id c bytes) : es.filterMap value? = [] := by
  rw [List.filterMap_eq_nil_iff]
  intro e he
  cases e with
  | received bytes =>
    obtain ⟨id, c, hnotified, -⟩ := h.received he
    exact absurd hnotified (hx id c bytes)
  | _ => rfl

theorem Responds.filterMap_value_notified {s : Subscription} {item : Item}
    (h : Responds w (.notified s.peripheral item.characteristic item.bytes) rs es after)
    (hs : w.subscription = some s) : es.filterMap value? = values s [item] := by
  cases h with
  | delivers id c bytes received reads =>
    have hc : item.characteristic = s.characteristic := by
      rw [Option.some.inj (hs.symm.trans reads)]
    simp [value?, values, hc]
  | unread id c bytes other =>
    have hc : item.characteristic ≠ s.characteristic := fun hc => other (by rw [hs, hc])
    simp [values, hc]

end

/-! ## Where notifications come from -/

section

variable {α : Type}

/-- Whether reading ends with a stimulus, or begins anew: a call to open or close a link or to
enable notifications, or the loss of the link. -/
def endsReading (current : Option Peripheral) : Stimulus → Bool
  | .call (.connect _) => true
  | .call .disconnect => true
  | .call (.enableNotify _) => true
  | .report (.disconnected id) => current.any (·.id == id)
  | _ => false

/-- What a stimulus does to what is read. -/
inductive Reads (w : Worker α) (x : Stimulus) (rs : List (Request × Bool)) (after : Holding) : Prop
  | nothing (subscription : after.subscription = none)
  | enabled (p : Peripheral) (c : Characteristic) (call : x = .call (.enableNotify c))
      (link : w.current = some p)
      (subscribed : (.subscribe p.id (Gatt.characteristic c), true) ∈ rs)
      (opened : (.notifications p.id, true) ∈ rs) (current : after.current = some p)
      (subscription : after.subscription = some ⟨p.id, Gatt.characteristic c⟩)
  | kept (current : after.current = w.current) (subscription : after.subscription = w.subscription)
      (goesOn : endsReading w.current x = false)

theorem Responds.reads {w : Worker α} {x : Stimulus} {rs : List (Request × Bool)} {es : List Event}
    {after : Holding} (h : Responds w x rs es after)
    (hidle : w.current = none → w.subscription = none) : Reads w x rs after := by
  cases h with
  | connects p closes => exact .nothing (Holding.vacated_subscription hidle)
  | connectFails p closes => exact .nothing (Holding.vacated_subscription hidle)
  | unknown a closes => exact .nothing (Holding.vacated_subscription hidle)
  | disconnects p ok link => exact .nothing rfl
  | noLink link => exact .nothing rfl
  | notifies c p link => exact .enabled p c rfl link (by simp) (by simp) link rfl
  | notifyFails c p ok link unread => exact .nothing rfl
  | notifiesNothing c link => exact .nothing rfl
  | loses p link => exact .nothing rfl
  | sees id d he window => exact .kept rfl rfl (by rcases he with rfl | rfl <;> rfl)
  | overlooks e kept =>
    refine .kept rfl rfl ?_
    cases e with
    | disconnected id => exact any_eq_false_of_kept kept
    | _ => rfl
  | delivers id c bytes received reads =>
    cases received with
    | true => exact .kept rfl rfl rfl
    | false => exact .nothing rfl
  | streamEnds id reads => exact .nothing rfl
  | _ => exact .kept rfl rfl rfl

end

variable {α : Type} [Adapter α]

/-- The turn enables the notifications of a characteristic on the link to a peripheral. -/
def Turn.enables (p : Peripheral) (c : Characteristic) (t : Turn α) : Prop :=
  t.stimulus = .call (.enableNotify c) ∧ t.before.current = some p ∧
    (.subscribe p.id (Gatt.characteristic c), true) ∈ t.requests ∧
    (.notifications p.id, true) ∈ t.requests

/-- The notifications of a characteristic were enabled on the link to a peripheral, and since then
nothing ended the link or enabled others. -/
def EnabledOn (p : Peripheral) (c : Characteristic) (ts : List (Turn α)) : Prop :=
  Since (fun _ t => t.enables p c) (fun t => endsReading t.before.current t.stimulus = false) ts

/-- What is subscribed was enabled on the link that is open. -/
theorem reads_run (adapter : α) (limit : Nanos) (steps : List (Step α)) :
    ∀ s, ((fresh adapter limit).run steps).subscription = some s →
      ∃ p c, ((fresh adapter limit).run steps).current = some p ∧
        s = ⟨p.id, Gatt.characteristic c⟩ ∧ EnabledOn p c (turns steps (fresh adapter limit)) := by
  refine run_induction (P := fun ts h => ∀ s, h.subscription = some s →
    ∃ p c, h.current = some p ∧ s = ⟨p.id, Gatt.characteristic c⟩ ∧ EnabledOn p c ts)
    (fun s hs => by cases hs) (fun ts t ih s hs => ?_) steps
  have hidle : t.before.current = none → t.before.subscription = none := by
    intro hnone
    refine Option.eq_none_iff_forall_ne_some.2 fun s hs => ?_
    obtain ⟨p, c, hp, -⟩ := ih s hs
    cases hnone.symm.trans hp
  cases t.responds.1.reads hidle with
  | nothing subscription => cases subscription.symm.trans hs
  | enabled p c call link subscribed opened current subscription =>
    exact ⟨p, c, current, Option.some.inj (hs.symm.trans subscription),
      .of_last ⟨call, link, subscribed, opened⟩⟩
  | kept current subscription goesOn =>
    obtain ⟨p, c, hp, hsource, hsince⟩ := ih s (subscription.symm.trans hs)
    exact ⟨p, c, current.trans hp, hsource, hsince.later goesOn⟩

/-! ## What is passed on -/

theorem values_append (s : Subscription) (items items' : List Item) :
    values s (items ++ items') = values s items ++ values s items' := by
  simp [values]

/-- What a worker does to its tasks leaves those it has spawned, and may add one. -/
theorem Readers.spawned_after (current : Option Peripheral) (x : Stimulus)
    (requests : List (Request × Bool)) (rs : Readers) :
    (rs.after current x requests).spawned = rs.spawned ∨
      ∃ s, (rs.after current x requests).spawned = rs.spawned ++ [s] := by
  unfold after
  split
  · split
    · exact .inl rfl
    · exact .inl rfl
  · exact .inl rfl
  · split
    · exact .inr ⟨_, rfl⟩
    · exact .inl rfl
  · split
    · exact .inl rfl
    · exact .inl rfl
  · exact .inl rfl

namespace Shift

/-- What the events of a shift pass on. -/
def received (x : Shift α) : List (List UInt8) := (x.turns.flatMap Turn.events).filterMap value?

/-- What is to be passed on of the items that were read of some streams. -/
def owedOf (script : Nat → List Item) (position : Nat → Nat) (sources : List Subscription) :
    List (List UInt8) :=
  sources.zipIdx.flatMap fun (s, stream) => values s ((script stream).take (position stream))

theorem owedOf_concat (script : Nat → List Item) (position : Nat → Nat)
    (earlier : List Subscription) (s : Subscription) :
    owedOf script position (earlier ++ [s]) = owedOf script position earlier ++
      values s ((script earlier.length).take (position earlier.length)) := by
  simp [owedOf, List.zipIdx_append]

theorem owedOf_congr {script : Nat → List Item} {position position' : Nat → Nat}
    {sources : List Subscription} (h : ∀ n < sources.length, position' n = position n) :
    owedOf script position' sources = owedOf script position sources := by
  refine List.flatMap_congr fun ⟨s, n⟩ hn => ?_
  dsimp only
  rw [h n (List.snd_lt_of_mem_zipIdx hn)]

/-- What is passed on is what was read, and nothing was read of a stream before its task. -/
structure Passes (script : Nat → List Item) (x : Shift α) : Prop where
  unread : ∀ stream, x.readers.spawned.length ≤ stream → x.position stream = 0
  received : x.received = owedOf script x.position x.readers.spawned

variable {script : Nat → List Item} {x : Shift α}

theorem received_of_turn {y : Shift α} {z : Stimulus} (hstart : y.start = x.start)
    (hsteps : y.steps = x.steps ++ [.stimulus z]) :
    y.received = x.received ++ (Turn.events ⟨x.worker, z⟩).filterMap value? := by
  rw [received, turns, hstart, hsteps, turns_append, List.flatMap_append, List.filterMap_append]
  simp [received, turns, Worker.turns, worker]

theorem received_of_change {y : Shift α} {s : Step α} (hs : ∀ z, s ≠ .stimulus z)
    (hstart : y.start = x.start) (hsteps : y.steps = x.steps ++ [s]) : y.received = x.received := by
  rw [received, turns, hstart, hsteps, turns_append, List.flatMap_append, List.filterMap_append]
  cases s with
  | stimulus z => exact absurd rfl (hs z)
  | adapter f => exact List.append_nil _
  | receiver f => exact List.append_nil _

/-- Without a notification nothing is passed on. -/
theorem received_of_silent {y : Shift α} {z : Stimulus}
    (hz : ∀ id c bytes, z ≠ .notified id c bytes) (hstart : y.start = x.start)
    (hsteps : y.steps = x.steps ++ [.stimulus z]) : y.received = x.received := by
  rw [received_of_turn hstart hsteps, (Turn.responds ⟨x.worker, z⟩).1.filterMap_value hz,
    List.append_nil]

theorem passes_stimulate {z : Stimulus} (h : Passes script x)
    (hz : ∀ id c bytes, z ≠ .notified id c bytes) : Passes script (x.stimulate z) := by
  have hreceived : (x.stimulate z).received = x.received := received_of_silent hz rfl rfl
  have hspawned := Readers.spawned_after x.worker.current z (Turn.requests ⟨x.worker, z⟩) x.readers
  change (x.stimulate z).readers.spawned = _ ∨
    ∃ s, (x.stimulate z).readers.spawned = _ at hspawned
  rcases hspawned with hsame | ⟨s, hmore⟩
  · refine ⟨fun stream hle => h.unread stream (hsame ▸ hle), ?_⟩
    rw [hreceived, h.received, hsame]
    rfl
  · refine ⟨fun stream hle => h.unread stream ?_, ?_⟩
    · rw [hmore, List.length_append] at hle
      exact Nat.le_of_add_right_le hle
    · have hzero : (x.stimulate z).position x.readers.spawned.length = 0 :=
        h.unread _ (Nat.le_refl _)
      rw [hreceived, h.received, hmore, owedOf_concat, hzero, List.take_zero]
      exact (List.append_nil _).symm

theorem passes_exhaust (h : Passes script x) (r : Reader) : Passes script (x.exhaust r) where
  unread := h.unread
  received := by
    have hreceived : (x.exhaust r).received = x.received :=
      received_of_silent (z := .streamEnded r.source.peripheral) nofun rfl rfl
    exact hreceived.trans h.received

theorem spawned_take (r : Reader) (item : Item) :
    (x.take r item).readers.spawned = x.readers.spawned := by
  unfold take
  dsimp only
  split <;> rfl

theorem passes_take {r : Reader} {stream : Nat} {item : Item}
    (ht : Tended x.readers x.worker.holding) (h : Passes script x)
    (hr : x.readers.alive.find? (·.stream = stream) = some r)
    (hitem : (script stream)[x.position stream]? = some item) : Passes script (x.take r item) := by
  obtain ⟨-, earlier, -, -, hsubscription, hspawned, rfl, -, hnumber⟩ := ht.found hr
  have hother : ∀ n ≠ earlier.length, (x.take r item).position n = x.position n := by
    intro n hn
    rw [take, hnumber]
    exact Function.update_of_ne hn _ _
  have hnext : (x.take r item).position earlier.length = x.position earlier.length + 1 := by
    rw [take, hnumber]
    exact Function.update_self ..
  refine ⟨fun n hle => ?_, ?_⟩
  · rw [spawned_take, hspawned, List.length_append, List.length_singleton] at hle
    rw [hother n (Nat.ne_of_gt hle)]
    refine h.unread n ?_
    rw [hspawned, List.length_append, List.length_singleton]
    exact hle
  · have hreceived : (x.take r item).received = x.received ++ values r.source [item] := by
      rw [received_of_turn (x := x) (y := x.take r item) rfl rfl]
      exact congrArg _ ((Turn.responds ⟨x.worker, _⟩).1.filterMap_value_notified hsubscription)
    rw [hreceived, h.received, spawned_take, hspawned, owedOf_concat, owedOf_concat,
      owedOf_congr fun n hn => hother n (Nat.ne_of_lt hn), hnext, List.take_add_one, hitem,
      values_append, List.append_assoc]
    rfl

theorem passes_move (ht : Tended x.readers x.worker.holding) (h : Passes script x) (m : Move α) :
    Passes script (x.move script m) := by
  cases m with
  | call c => exact passes_stimulate (z := .call c) h nofun
  | report e => exact passes_stimulate (z := .report e) h nofun
  | scanOver => exact passes_stimulate (z := .scanOver) h nofun
  | adapter f =>
    have hsame : (x.move script (.adapter f)).received = x.received :=
      received_of_change (s := .adapter f) nofun rfl rfl
    exact ⟨h.unread, hsame.trans h.received⟩
  | receiver f =>
    have hsame : (x.move script (.receiver f)).received = x.received :=
      received_of_change (s := .receiver f) nofun rfl rfl
    exact ⟨h.unread, hsame.trans h.received⟩
  | read stream =>
    change Passes script (x.read script stream)
    unfold read
    split
    · exact h
    · rename_i r hr
      split
      · exact passes_exhaust h r
      · rename_i item hitem
        exact passes_take ht h hr hitem

theorem passes_play (script : Nat → List Item) (adapter : α) (limit : Nanos)
    (moves : List (Move α)) : Passes script ((new adapter limit).play script moves) := by
  induction moves using List.reverseRecOn with
  | nil => exact ⟨fun _ _ => rfl, rfl⟩
  | append_singleton moves m ih =>
    rw [play_concat]
    exact passes_move (tended_play script adapter limit moves) ih m

end Shift

/-! ## Shifts -/

open Shift

/-- Any shift of a worker, with any adapter, any streams, and tasks that read on at any time. At
most one task is alive, and it reads from the link that is open. A notification is passed on only
from the link that is open, on which a call to enable notifications succeeded with nothing since
that ended the link or enabled others, and only for the characteristic of that call; it is the only
event of its turn. All that is passed on, in order, is what the items that were read of each stream
have of its characteristic, each item once and one stream after the other. -/
theorem notifications_of_link (adapter : α) (limit : Nanos) (script : Nat → List Item)
    (moves : List (Shift.Move α)) :
    let x := (Shift.new adapter limit).play script moves
    x.readers.alive.length ≤ 1 ∧
    (∀ r ∈ x.readers.alive, ∃ p, x.worker.current = some p ∧ r.source.peripheral = p.id) ∧
    (∀ before t after bytes, x.turns = before ++ t :: after → .received bytes ∈ t.events →
      ∃ p c, t.events = [.received bytes] ∧
        t.stimulus = .notified p.id (Gatt.characteristic c) bytes ∧
        t.before.current = some p ∧ EnabledOn p c before) ∧
    x.received = owedOf script x.position x.readers.spawned := by
  intro x
  have htended : Tended x.readers x.worker.holding := tended_play script adapter limit moves
  have hstart : x.start = fresh adapter limit := start_play ..
  have hpassed : Passes script x := passes_play script adapter limit moves
  refine ⟨?_, fun r hr => ?_, fun before t after bytes hsplit hevent => ?_, hpassed.received⟩
  · cases htended with
    | idle subscription alive => simp [alive]
    | reading p s earlier current peripheral subscription spawned alive => simp [alive]
  · cases htended with
    | idle subscription alive => simp [alive] at hr
    | reading p s earlier current peripheral subscription spawned alive =>
      obtain rfl : r = ⟨earlier.length, s⟩ := by simpa [alive] using hr
      exact ⟨p, current, peripheral⟩
  · obtain ⟨first, hfirst, hrun⟩ := turns_split hsplit
    obtain ⟨id, uuid, hstimulus, hsubscription, hevents⟩ := t.responds.1.received hevent
    rw [hstart] at hfirst hrun
    rw [← hrun] at hsubscription
    obtain ⟨p, c, hcurrent, hsource, hsince⟩ := reads_run adapter limit first _ hsubscription
    cases hsource
    exact ⟨p, c, hevents, hstimulus, hrun ▸ hcurrent, hfirst ▸ hsince⟩

/-- Notifications are enabled twice on a link that is then lost. Of the first stream only what was
read before the second call is passed on, of the second one not the value of another
characteristic, and nothing after the loss. -/
example :
    let adapter : ScriptedAdapter :=
      { peripherals := [{ id := "a", address := ⟨0, 0, 0, 0, 0, 10⟩
                          characteristics := [(Gatt.service, Gatt.characteristic .notify)] }] }
    let notified (bytes : List UInt8) : Item := ⟨Gatt.characteristic .notify, bytes⟩
    let script (stream : Nat) : List Item :=
      if stream = 0 then [notified [1], notified [2]]
      else [⟨Gatt.characteristic .write, [3]⟩, notified [4], notified [5]]
    let x := (Shift.new adapter 0).play script
      [.call (.connect ⟨0, 0, 0, 0, 0, 10⟩), .call (.enableNotify .notify), .read 0,
        .call (.enableNotify .notify), .read 0, .read 1, .read 1, .report (.disconnected "a"),
        .read 1]
    x.received = [[1], [4]] ∧ x.readers.alive = [] := by
  decide

end Worker

end VehicleLink
