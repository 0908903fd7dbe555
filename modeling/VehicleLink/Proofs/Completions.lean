import VehicleLink.Proofs.WorkerRun

/-!
# Completions

A call to write, to discover or to connect is to be answered by one event. A worker answers each
of them once, in the order of the calls, whatever its adapter does and whatever else moves it
between them, and completes nothing that was not called for (`commands_completed`).

A link that ends is reported by the same event as a connection that failed, so among all events
only those about writes, discoveries and links that came up tell by themselves what they complete.
-/

namespace VehicleLink

/-! ## What is waited for -/

/-- What a call is to be answered with. -/
inductive Awaited where
  | written
  | discovered
  | link
  deriving DecidableEq

def Call.awaits : Call → Option Awaited
  | .write _ _ => some .written
  | .discover => some .discovered
  | .connect _ => some .link
  | _ => none

def Stimulus.awaits : Stimulus → Option Awaited
  | .call c => c.awaits
  | _ => none

/-- What an event can complete. -/
def Event.completes : Event → Option Awaited
  | .writeComplete _ => some .written
  | .servicesDiscovered _ => some .discovered
  | .linkUp => some .link
  | .linkDown => some .link
  | _ => none

namespace Worker

variable {α : Type}

def Turn.awaits (t : Turn α) : Option Awaited := t.stimulus.awaits

theorem filterMap_awaits (ts : List (Turn α)) :
    ts.filterMap Turn.awaits = ts.flatMap fun t => t.awaits.toList := by
  induction ts with
  | nil => rfl
  | cons t ts ih => cases h : t.awaits <;> simp [h, ih]

/-! ## One turn -/

section

variable {w : Worker α} {rs : List (Request × Bool)} {es : List Event} {after : Holding}

/-- A write succeeds exactly if the one request that it made of the link did. -/
theorem Responds.write {c : Characteristic} {bytes : List UInt8}
    (h : Responds w (.call (.write c bytes)) rs es after) :
    ∃ ok, es = [.writeComplete ok] ∧ (ok = true ↔ ∃ p, w.current = some p ∧
      rs = [(.write p.id (Gatt.characteristic c) bytes, true)]) := by
  cases h with
  | writes _ _ p ok link => exact ⟨ok, rfl, by simp [link]⟩
  | writesNothing => exact ⟨false, rfl, by simp⟩

theorem Responds.discover (h : Responds w (.call .discover) rs es after) :
    ∃ ok, es = [.servicesDiscovered ok] ∧ (ok = true ↔ ∃ p, w.current = some p ∧
      rs = [(.discover p.id, true)]) := by
  cases h with
  | discovers p ok link => exact ⟨ok, rfl, by simp [link]⟩
  | discoversNothing => exact ⟨false, rfl, by simp⟩

theorem Responds.connect {a : Address} (h : Responds w (.call (.connect a)) rs es after) :
    es = [.linkUp] ∧ (∃ p : Peripheral, p.address = a ∧
        (.connect p.id w.connectTimeout, true) ∈ rs) ∨
      es = [.linkDown] ∧ ∀ id limit, (.connect id limit, true) ∉ rs := by
  cases h with
  | connects p closes => exact .inl ⟨rfl, p, rfl, by simp⟩
  | connectFails p closes =>
    exact .inr ⟨rfl, fun id limit => by simpa using closes.not_connected id limit⟩
  | unknown _ closes => exact .inr ⟨rfl, closes.not_connected⟩

/-- A call to close a link, or to read from it, is answered only by the end of the link. -/
theorem Responds.closing {c : Call} (hc : c = .disconnect ∨ ∃ k, c = .enableNotify k)
    (h : Responds w (.call c) rs es after) : es = [] ∨ es = [.linkDown] ∧ w.current ≠ none := by
  cases h with
  | disconnects p ok link => exact .inr ⟨rfl, by simp [link]⟩
  | notifyFails _ p ok link => exact .inr ⟨rfl, by simp [link]⟩
  | notifies => exact .inl rfl
  | noLink => exact .inl rfl
  | notifiesNothing => exact .inl rfl
  | _ => simp at hc

/-- What a stimulus that waits for nothing brings about completes nothing, unless it is the end of a
link that was open. -/
theorem Responds.unasked {x : Stimulus} (hx : x.awaits = none) (h : Responds w x rs es after) :
    ∀ e ∈ es, e.completes = none ∨ e = .linkDown ∧ w.current ≠ none := by
  cases h with
  | connects => cases hx
  | connectFails => cases hx
  | unknown => cases hx
  | discovers => cases hx
  | discoversNothing => cases hx
  | writes => cases hx
  | writesNothing => cases hx
  | disconnects p ok link => simp [link]
  | notifyFails _ p ok link => simp [link]
  | loses p link => simp [link]
  | _ => simp [Event.completes]

end

variable [Adapter α]

namespace Turn

/-- The events by which a turn answers the call it carried out. -/
def completions (t : Turn α) : List Event := if t.awaits.isSome then t.events else []

/-- How a turn answers. -/
structure Answered (t : Turn α) : Prop where
  /-- One event for a call that waits for one, and none otherwise. -/
  once : t.completions.map Event.completes = t.awaits.toList.map some
  write : ∀ c bytes, t.stimulus = .call (.write c bytes) →
    ∃ ok, t.events = [.writeComplete ok] ∧ (ok = true ↔ ∃ p, t.before.current = some p ∧
      t.requests = [(.write p.id (Gatt.characteristic c) bytes, true)])
  discover : t.stimulus = .call .discover →
    ∃ ok, t.events = [.servicesDiscovered ok] ∧ (ok = true ↔ ∃ p, t.before.current = some p ∧
      t.requests = [(.discover p.id, true)])
  connect : ∀ a, t.stimulus = .call (.connect a) →
    t.events = [.linkUp] ∧ (∃ p : Peripheral, p.address = a ∧
        (.connect p.id t.before.connectTimeout, true) ∈ t.requests) ∨
      t.events = [.linkDown] ∧ ∀ id limit, (.connect id limit, true) ∉ t.requests
  /-- A call to close a link, or to read from it, is answered by the end of a link or not at all. -/
  closing : ∀ c, c = .disconnect ∨ (∃ k, c = .enableNotify k) → t.stimulus = .call c →
    t.events = [] ∨ t.events = [.linkDown] ∧ t.before.current ≠ none
  /-- Nothing is completed without a call; only a link that was open may end. -/
  unasked : t.awaits = none →
    ∀ e ∈ t.events, e.completes = none ∨ e = .linkDown ∧ t.before.current ≠ none

theorem once (t : Turn α) : t.completions.map Event.completes = t.awaits.toList.map some := by
  obtain ⟨h, -⟩ := t.responds
  unfold completions awaits
  generalize t.stimulus = x at h ⊢
  cases x with
  | call c =>
    cases c with
    | connect a =>
      rcases h.connect with ⟨hes, -⟩ | ⟨hes, -⟩ <;>
        simp [Stimulus.awaits, Call.awaits, hes, Event.completes]
    | discover =>
      obtain ⟨ok, hes, -⟩ := h.discover
      simp [Stimulus.awaits, Call.awaits, hes, Event.completes]
    | write c bytes =>
      obtain ⟨ok, hes, -⟩ := h.write
      simp [Stimulus.awaits, Call.awaits, hes, Event.completes]
    | _ => rfl
  | _ => rfl

theorem answered (t : Turn α) : t.Answered where
  once := t.once
  write _ _ h := Responds.write (h ▸ t.responds.1)
  discover h := Responds.discover (h ▸ t.responds.1)
  connect _ h := Responds.connect (h ▸ t.responds.1)
  closing _ hc h := Responds.closing hc (h ▸ t.responds.1)
  unasked h := t.responds.1.unasked h

/-- All that a turn completes but links was called for in it. -/
theorem completes_eq (t : Turn α) :
    (t.events.filterMap Event.completes).filter (· ≠ .link) =
      t.awaits.toList.filter (· ≠ .link) := by
  cases h : t.awaits with
  | none =>
    have hes : ∀ k ∈ t.events.filterMap Event.completes, k = .link := by
      intro k hk
      obtain ⟨e, he, hek⟩ := List.mem_filterMap.1 hk
      rcases t.answered.unasked h e he with hnone | ⟨rfl, -⟩
      · rw [hnone] at hek
        cases hek
      · exact (Option.some.inj hek).symm
    simpa using hes
  | some k =>
    have honce := t.once
    simp only [completions, h, Option.isSome_some, if_true, Option.toList_some] at honce
    obtain ⟨e, hes, hek⟩ := List.map_eq_singleton_iff.1 honce
    simp [hes, hek]

end Turn

/-! ## Runs -/

/-- Any run of a worker, with any adapter. The events that answer a call complete, in order, what
the calls wait for, one event each; among all events that the worker sends, those that tell of a
write or a discovery do. In each turn a success is told exactly if a link was open when the call was
carried out and the request made of it succeeded, and a call to close a link or to read from it is
answered by nothing but the end of a link that was open. -/
theorem commands_completed (adapter : α) (limit : Nanos) (steps : List (Step α)) :
    let ts := turns steps (fresh adapter limit)
    (ts.flatMap Turn.completions).map Event.completes = (ts.filterMap Turn.awaits).map some ∧
    ((ts.flatMap Turn.events).filterMap Event.completes).filter (· ≠ .link) =
      (ts.filterMap Turn.awaits).filter (· ≠ .link) ∧
    ∀ t ∈ ts, t.Answered := by
  intro ts
  refine ⟨?_, ?_, fun t _ => t.answered⟩
  · rw [filterMap_awaits, List.map_flatMap, List.map_flatMap]
    exact congrArg (ts.flatMap ·) (funext Turn.once)
  · rw [filterMap_awaits, List.filterMap_flatMap, List.filter_flatMap, List.filter_flatMap]
    exact congrArg (ts.flatMap ·) (funext Turn.completes_eq)

end Worker

end VehicleLink
