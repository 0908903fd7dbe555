import VehicleLink.Proofs.Ahead
import VehicleLink.Proofs.InboundStream

/-!
# Several pumpers

Whoever pumps takes an event from the channel and then handles it. The channel is free again in
between, so with several pumpers (`Pumpers`) events that were taken one after the other may be
handled in another order.

Events are handled in the order in which they arrived exactly if whoever handles one holds the
oldest that is taken and not handled yet (`InTurn`, `handled_in_order_iff`). Then the endpoint is at
every moment that of one pumper who takes and handles each event at once, with the held events still
ahead in its inbox (`run_ahead`). One pumper alone is always in turn (`inTurn_of_one`); two can turn
the bytes of a link around (`two_pumpers_turn_bytes_around`).
-/

namespace VehicleLink

/-- Whether a step handles an event. -/
def Step.handlesEvent {ρ σ : Type} : Step ρ σ → Bool
  | .act (.handle _) => true
  | .act .next => true
  | _ => false

/-- An event that a pumper has taken and not handled yet. -/
structure Held (ι : Type) where
  pumper : ι
  /-- How many events were taken before it. -/
  place : Nat
  event : Event

/-- An endpoint with several pumpers. -/
structure Pumpers (ι ρ σ : Type) where
  endpoint : Endpoint (Logged ρ) σ
  /-- What is taken and not handled yet, in the order in which it was taken. -/
  held : List (Held ι) := []
  /-- How many events were taken. -/
  taken : Nat := 0
  /-- The places of the events that were handled, in the order in which they were. -/
  handled : List Nat := []

namespace Pumpers

/-- What a pumper does, or anything else that happens to the endpoint. -/
inductive Move (ι ρ σ : Type) where
  /-- A pumper that holds no event takes the next one. -/
  | take (i : ι)
  /-- A pumper handles the event that it holds. -/
  | handle (i : ι)
  | other (s : Step ρ σ) (h : s.handlesEvent = false)

variable {ι ρ σ : Type} [DecidableEq ι]

/-- The event that a pumper holds. -/
def holding (i : ι) (q : Pumpers ι ρ σ) : Option (Held ι) := q.held.find? (·.pumper = i)

omit [DecidableEq ι] in
/-- The held events, the oldest first. -/
def waiting (q : Pumpers ι ρ σ) : List Event := q.held.map Held.event

/-- Whoever handles an event holds the oldest one. -/
def Move.InTurn (q : Pumpers ι ρ σ) (m : Move ι ρ σ) : Prop :=
  ∀ i, m = .handle i → ∀ x, q.holding i = some x → q.held.head? = some x

/-- What one pumper does alone in the place of a move: it takes an event when it handles it. -/
def Move.alone (q : Pumpers ι ρ σ) : Move ι ρ σ → List (Step ρ σ)
  | .take _ => []
  | .handle i => if (q.holding i).isSome then [.act .next] else []
  | .other s _ => [s]

variable [Radio ρ] [DeviceStore σ]

/-- Carries out a move; one that is not possible changes nothing. -/
def move (m : Move ι ρ σ) (q : Pumpers ι ρ σ) : Pumpers ι ρ σ :=
  match m with
  | .take i =>
    match q.holding i, q.endpoint.inbox with
    | none, e :: rest =>
      { q with
        endpoint := { q.endpoint with inbox := rest }
        held := q.held ++ [⟨i, q.taken, e⟩]
        taken := q.taken + 1 }
    | _, _ => q
  | .handle i =>
    match q.holding i with
    | none => q
    | some x =>
      { q with
        endpoint := q.endpoint.handle x.event
        held := q.held.eraseP (·.pumper = i)
        handled := q.handled ++ [x.place] }
  | .other s _ => { q with endpoint := q.endpoint.step s.logged }

def run (ms : List (Move ι ρ σ)) (q : Pumpers ι ρ σ) : Pumpers ι ρ σ :=
  ms.foldl (fun q m => q.move m) q

/-- All events are handled in turn. -/
def InTurn : List (Move ι ρ σ) → Pumpers ι ρ σ → Prop
  | [], _ => True
  | m :: ms, q => m.InTurn q ∧ InTurn ms (q.move m)

/-- What one pumper does alone in the place of all. -/
def alone : List (Move ι ρ σ) → Pumpers ι ρ σ → List (Step ρ σ)
  | [], _ => []
  | m :: ms, q => m.alone q ++ alone ms (q.move m)

variable {q : Pumpers ι ρ σ} {m : Move ι ρ σ}

/-! ## What a move does -/

theorem move_take (i : ι) (q : Pumpers ι ρ σ) :
    q.move (.take i) = q ∨ ∃ e rest, q.holding i = none ∧ q.endpoint.inbox = e :: rest ∧
      q.move (.take i) =
        { q with
          endpoint := { q.endpoint with inbox := rest }
          held := q.held ++ [⟨i, q.taken, e⟩]
          taken := q.taken + 1 } := by
  rw [move]
  split
  · rename_i e rest hnone hinbox
    exact .inr ⟨e, rest, hnone, hinbox, rfl⟩
  · exact .inl rfl

/-- Whoever handles an event has it out of all that is held, and is in turn exactly if none of
these is older. -/
theorem move_handle (i : ι) (q : Pumpers ι ρ σ) :
    q.holding i = none ∧ q.move (.handle i) = q ∨
      ∃ older x newer, q.holding i = some x ∧ q.held = older ++ x :: newer ∧
        (Move.InTurn q (.handle i : Move ι ρ σ) ↔ older = []) ∧
        q.move (.handle i) =
          { q with
            endpoint := q.endpoint.handle x.event
            held := older ++ newer
            handled := q.handled ++ [x.place] } := by
  rw [move]
  split
  · rename_i hnone
    exact .inl ⟨hnone, rfl⟩
  · rename_i x hx
    obtain ⟨hi, older, newer, hheld, holder⟩ := List.find?_eq_some_iff_append.1 hx
    have herase : q.held.eraseP (·.pumper = i) = older ++ newer := by
      rw [hheld, List.eraseP_append_right _ (by simpa using holder), List.eraseP_cons, hi,
        cond_true]
    refine .inr ⟨older, x, newer, hx, hheld, ⟨fun hturn => ?_, ?_⟩, by rw [herase]⟩
    · have hhead := hturn i rfl x hx
      rw [hheld] at hhead
      cases older with
      | nil => rfl
      | cons y older =>
        obtain rfl : y = x := by simpa using hhead
        have hother := holder y List.mem_cons_self
        rw [hi] at hother
        cases hother
    · rintro rfl j ⟨⟩ y hy
      cases hx.symm.trans hy
      rw [hheld]
      rfl

/-! ## The order in which events are handled -/

/-- The events that were taken are those handled and those held, the held ones in the order in which
they were taken. -/
structure Numbered (q : Pumpers ι ρ σ) : Prop where
  all : (q.handled ++ q.held.map Held.place).Perm (List.range q.taken)
  ascending : (q.held.map Held.place).Pairwise (· < ·)

/-- The events were handled in the order in which they were taken, and none was passed over. -/
def InOrder (q : Pumpers ι ρ σ) : Prop := q.handled = List.range q.handled.length

theorem Numbered.move (h : q.Numbered) (m : Move ι ρ σ) : (q.move m).Numbered := by
  cases m with
  | take i =>
    rcases move_take i q with heq | ⟨e, rest, -, -, heq⟩
    · rw [heq]
      exact h
    · rw [heq]
      constructor
      · dsimp only
        rw [List.map_append, ← List.append_assoc, List.range_succ]
        exact h.all.append_right _
      · dsimp only
        rw [List.map_append]
        refine List.pairwise_append.2 ⟨h.ascending, List.pairwise_singleton _ _, ?_⟩
        intro n hn k hk
        rw [List.mem_singleton.1 hk]
        exact List.mem_range.1 (h.all.subset (List.mem_append_right _ hn))
  | handle i =>
    rcases move_handle i q with ⟨-, heq⟩ | ⟨older, x, newer, -, hheld, -, heq⟩
    · rw [heq]
      exact h
    · have hplaces : q.held.map Held.place =
          older.map Held.place ++ x.place :: newer.map Held.place := by
        rw [hheld, List.map_append, List.map_cons]
      have hall := hplaces ▸ h.all
      have hascending := hplaces ▸ h.ascending
      rw [heq]
      constructor
      · show (q.handled ++ [x.place] ++ (older ++ newer).map Held.place).Perm (List.range q.taken)
        rw [List.append_assoc, List.map_append, List.singleton_append]
        exact (List.perm_middle.symm.append_left q.handled).trans hall
      · show ((older ++ newer).map Held.place).Pairwise (· < ·)
        rw [List.map_append]
        exact hascending.sublist ((List.sublist_cons_self _ _).append_left _)
  | other s hs => exact ⟨h.all, h.ascending⟩

omit [DecidableEq ι] [Radio ρ] [DeviceStore σ] in
/-- Of events handled in order so far, the next is the oldest held. -/
theorem place_eq_iff (hq : q.Numbered) (hin : q.InOrder) {older newer : List (Held ι)} {x : Held ι}
    (hheld : q.held = older ++ x :: newer) : x.place = q.handled.length ↔ older = [] := by
  have hnodup : (q.handled ++ q.held.map Held.place).Nodup :=
    hq.all.nodup_iff.2 List.nodup_range
  -- a held event was not handled, so its place is none of the first ones
  have hlow {y : Held ι} (hy : y ∈ q.held) : q.handled.length ≤ y.place := by
    by_contra hlt
    have hmem : y.place ∈ q.handled := by
      rw [hin]
      exact List.mem_range.2 (Nat.lt_of_not_le hlt)
    exact (List.nodup_append.1 hnodup).2.2 _ hmem _ (List.mem_map_of_mem hy) rfl
  have hascending := hq.ascending
  rw [hheld, List.map_append, List.map_cons] at hascending
  constructor
  · intro hplace
    cases older with
    | nil => rfl
    | cons y older =>
      have hlt : y.place < x.place :=
        (List.pairwise_append.1 hascending).2.2 _ (by simp) _ (by simp)
      have := hlow (y := y) (by simp [hheld])
      omega
  · rintro rfl
    refine Nat.le_antisymm ?_ (hlow (by simp [hheld]))
    by_contra hgt
    have hlength := hq.all.length_eq
    rw [hheld, List.length_append, List.length_map, List.length_range] at hlength
    have hmem : q.handled.length ∈ q.handled ++ q.held.map Held.place :=
      hq.all.mem_iff.2 (List.mem_range.2 (by simp at hlength; omega))
    rcases List.mem_append.1 hmem with hmem | hmem
    · rw [hin] at hmem
      simpa using List.mem_range.1 hmem
    · rw [hheld, List.nil_append, List.map_cons, List.mem_cons] at hmem
      rcases hmem with hmem | hmem
      · omega
      · have := (List.pairwise_cons.1 hascending).1 _ hmem
        omega

/-- A move in turn keeps the order, and no other does. -/
theorem inOrder_move_iff (hq : q.Numbered) (hin : q.InOrder) :
    (q.move m).InOrder ↔ m.InTurn q := by
  cases m with
  | take i =>
    have hturn : Move.InTurn q (.take i : Move ι ρ σ) := by rintro j ⟨⟩
    refine ⟨fun _ => hturn, fun _ => ?_⟩
    rcases move_take i q with heq | ⟨e, rest, -, -, heq⟩
    · rwa [heq]
    · rw [heq]
      exact hin
  | other s hs => exact ⟨fun _ => by rintro j ⟨⟩, fun _ => hin⟩
  | handle i =>
    rcases move_handle i q with ⟨hnone, heq⟩ | ⟨older, x, newer, -, hheld, hturn, heq⟩
    · rw [heq]
      refine ⟨fun _ => ?_, fun _ => hin⟩
      rintro j ⟨⟩ x hx
      cases hnone.symm.trans hx
    · have hplace : (q.move (.handle i)).InOrder ↔ x.place = q.handled.length := by
        rw [heq, InOrder]
        dsimp only
        rw [List.length_append, List.length_singleton, List.range_succ, ← hin]
        simp
      rw [hplace, hturn]
      exact place_eq_iff hq hin hheld

theorem handled_move (m : Move ι ρ σ) (q : Pumpers ι ρ σ) : q.handled <+: (q.move m).handled := by
  cases m with
  | take i =>
    rcases move_take i q with heq | ⟨e, rest, -, -, heq⟩
    · simp [heq]
    · simp [heq]
  | handle i =>
    rcases move_handle i q with ⟨-, heq⟩ | ⟨older, x, newer, -, -, -, heq⟩
    · simp [heq]
    · simp [heq]
  | other s hs => exact List.prefix_rfl

theorem handled_run (ms : List (Move ι ρ σ)) (q : Pumpers ι ρ σ) :
    q.handled <+: (q.run ms).handled := by
  induction ms generalizing q with
  | nil => exact List.prefix_rfl
  | cons m ms ih => exact (handled_move m q).trans (ih (q.move m))

omit [DecidableEq ι] [Radio ρ] [DeviceStore σ] in
/-- What was in order at the end was in order before. -/
theorem InOrder.before {u : Pumpers ι ρ σ} (h : u.InOrder) (hp : q.handled <+: u.handled) :
    q.InOrder := by
  have htake := List.prefix_iff_eq_take.1 hp
  rw [h, List.take_range] at htake
  rw [InOrder, htake]
  simp

theorem inOrder_run_iff (hq : q.Numbered) (hin : q.InOrder) (ms : List (Move ι ρ σ)) :
    (q.run ms).InOrder ↔ InTurn ms q := by
  induction ms generalizing q with
  | nil => exact ⟨fun _ => trivial, fun _ => hin⟩
  | cons m ms ih =>
    have hmove := inOrder_move_iff (m := m) hq hin
    constructor
    · intro h
      have hm : (q.move m).InOrder := InOrder.before h (handled_run ms (q.move m))
      exact ⟨hmove.1 hm, (ih (hq.move m) hm).1 h⟩
    · rintro ⟨hturn, hturns⟩
      exact (ih (hq.move m) (hmove.2 hturn)).2 hturns

/-! ## One pumper in the place of all -/

/-- A move in turn is what one pumper does who has all held events still ahead. -/
theorem ahead_move (h : m.InTurn q) :
    (q.move m).endpoint.ahead (q.move m).waiting =
      (q.endpoint.ahead q.waiting).runLogged (m.alone q) := by
  cases m with
  | take i =>
    rcases move_take i q with heq | ⟨e, rest, -, hinbox, heq⟩
    · rw [heq]
      rfl
    · rw [heq]
      show _ = q.endpoint.ahead q.waiting
      simp [Endpoint.ahead, waiting, hinbox]
  | handle i =>
    rcases move_handle i q with ⟨hnone, heq⟩ | ⟨older, x, newer, hx, hheld, hturn, heq⟩
    · rw [heq, Move.alone, hnone]
      rfl
    · obtain rfl : older = [] := hturn.1 h
      have hwaiting : q.waiting = x.event :: newer.map Held.event := by
        rw [waiting, hheld]
        rfl
      rw [heq, Move.alone, hx, hwaiting]
      exact (Endpoint.handleNext_ahead _ _ _).symm
  | other s hs =>
    have hnext : s.logged ≠ .act .next := by
      cases s with
      | act a =>
        rintro ⟨⟩
        cases hs
      | _ => rintro ⟨⟩
    exact (Endpoint.step_ahead q.waiting q.endpoint hnext).symm

/-- As long as all events are handled in turn, the endpoint with the held events ahead is that of
one pumper. -/
theorem run_ahead {ms : List (Move ι ρ σ)} (h : InTurn ms q) :
    (q.run ms).endpoint.ahead (q.run ms).waiting =
      (q.endpoint.ahead q.waiting).runLogged (alone ms q) := by
  induction ms generalizing q with
  | nil => rfl
  | cons m ms ih =>
    obtain ⟨hm, hms⟩ := h
    have hsplit : (q.endpoint.ahead q.waiting).runLogged (alone (m :: ms) q) =
        ((q.endpoint.ahead q.waiting).runLogged (m.alone q)).runLogged
          (alone ms (q.move m)) := by
      rw [alone, Endpoint.runLogged, List.map_append, Endpoint.run_append]
      rfl
    rw [hsplit, ← ahead_move hm]
    exact ih hms

theorem InTurn.of_append {first later : List (Move ι ρ σ)} (h : InTurn (first ++ later) q) :
    InTurn first q := by
  induction first generalizing q with
  | nil => trivial
  | cons m first ih => exact ⟨h.1, ih h.2⟩

/-- One pumper is always in turn: it holds one event at most. -/
theorem inTurn_of_one [Subsingleton ι] (h : q.held.length ≤ 1) (ms : List (Move ι ρ σ)) :
    InTurn ms q := by
  induction ms generalizing q with
  | nil => trivial
  | cons m ms ih =>
    cases m with
    | take i =>
      refine ⟨(by rintro j ⟨⟩), ih ?_⟩
      rcases move_take i q with heq | ⟨e, rest, hnone, -, heq⟩
      · rwa [heq]
      · have hheld : q.held = [] := by
          refine List.eq_nil_iff_forall_not_mem.2 fun x hx => ?_
          have := List.find?_eq_none.1 hnone x hx
          simp [Subsingleton.elim x.pumper i] at this
        simp [heq, hheld]
    | handle i =>
      rcases move_handle i q with ⟨hnone, heq⟩ | ⟨older, x, newer, hx, hheld, hturn, heq⟩
      · refine ⟨?_, ih (by rwa [heq])⟩
        rintro j ⟨⟩ x hx
        cases hnone.symm.trans hx
      · rw [hheld, List.length_append, List.length_cons] at h
        have holder : older = [] := List.eq_nil_of_length_eq_zero (by omega)
        refine ⟨hturn.2 holder, ih ?_⟩
        rw [heq]
        dsimp only
        rw [List.length_append]
        omega
    | other s hs => exact ⟨(by rintro j ⟨⟩), ih h⟩

omit [DecidableEq ι] [Radio ρ] [DeviceStore σ] in
/-- Pumpers that have not taken anything. -/
def idle (w : Endpoint (Logged ρ) σ) : Pumpers ι ρ σ := { endpoint := w }

open Endpoint in
/-- Over any interleaving of what any number of pumpers do with all else that happens to a transport
that was created: events are handled in the order in which they arrived if and only if whoever
handles one holds the oldest that is held. Then the transport goes through the states of one pumper
that handles the events one by one, and while the link is up, what was read since it came up and
what is buffered are together what came on it, in the order in which it was sent. -/
theorem handled_in_order_iff {s : LinkSettings} {target : Option String} {radio : Logged ρ}
    {store : σ} {w : Endpoint (Logged ρ) σ} (hw : create s target radio store = .ok w)
    (ms : List (Move ι ρ σ)) :
    let q := (idle w : Pumpers ι ρ σ).run ms
    let link := Turn.sinceUp (turns (alone ms (idle w)) w)
    (q.InOrder ↔ InTurn ms (idle w)) ∧
      (InTurn ms (idle w) →
        (∀ first later, ms = first ++ later →
          ((idle w : Pumpers ι ρ σ).run first).endpoint.transport =
            (w.runLogged (alone first (idle w))).transport) ∧
        (q.endpoint.isUp = true →
          link.flatMap Turn.taken ++ q.endpoint.buffered = link.flatMap Turn.payload)) := by
  intro q link
  have hnumbered : (idle w : Pumpers ι ρ σ).Numbered := ⟨List.Perm.refl _, List.Pairwise.nil⟩
  have hone {ms : List (Move ι ρ σ)} (h : InTurn ms (idle w)) :
      ((idle w : Pumpers ι ρ σ).run ms).endpoint.transport =
        (w.runLogged (alone ms (idle w))).transport := by
    have hahead := congrArg Endpoint.transport (run_ahead h)
    exact hahead
  refine ⟨inOrder_run_iff hnumbered rfl ms, fun h => ⟨?_, fun hup => ?_⟩⟩
  · rintro first later rfl
    exact hone h.of_append
  · have hall := hone h
    have hdown : w.isUp = false := by
      obtain ⟨a, devices, -, rfl⟩ := create_eq hw
      rfl
    have hstream := (read_sinceUp hdown (alone ms (idle w))).1
    rw [isUp, ← hall] at hstream
    have hbuffered : q.endpoint.buffered = (w.runLogged (alone ms (idle w))).buffered :=
      congrArg (fun t => t.inbound.bytes) hall
    rw [hbuffered]
    exact hstream hup

/-- A link comes up, and two payloads are sent on it. -/
def sentTwice : List (Move Bool Radio.Simulated Store.Memory) :=
  [.other (.act .start) rfl, .other (.act (.connect (some ⟨0, 0, 0, 0, 0, 10⟩))) rfl, .take false,
    .handle false, .take false, .handle false, .other (.act (.raise (.received [1]))) rfl,
    .other (.act (.raise (.received [2]))) rfl]

open Endpoint in
/-- Two pumpers take one payload each and handle them in turn. -/
theorem handled_in_order_by_two :
    ∃ (w : Endpoint (Logged Radio.Simulated) Store.Memory)
      (ms : List (Move Bool Radio.Simulated Store.Memory)),
      create {} none ⟨{}, []⟩ {} = .ok w ∧
      ms = sentTwice ++ [.take false, .take true, .handle false, .handle true] ∧
      InTurn ms (idle w) ∧ ((idle w).run ms).endpoint.isUp = true ∧
      (Turn.sinceUp (turns (alone ms (idle w)) w)).flatMap Turn.taken ++
        ((idle w).run ms).endpoint.buffered = [1, 2] := by
  let ms : List (Move Bool Radio.Simulated Store.Memory) :=
    sentTwice ++ [.take false, .take true, .handle false, .handle true]
  have hw : create {} none (⟨{}, []⟩ : Logged Radio.Simulated) ({} : Store.Memory) = .ok _ := rfl
  have h := handled_in_order_iff hw ms
  have hturn := h.1.1 (by unfold InOrder; decide)
  refine ⟨_, ms, hw, rfl, hturn, by decide, ((h.2 hturn).2 (by decide)).trans ?_⟩
  decide

/-- The second pumper handles its payload while the first still holds the one that came before it:
the bytes are buffered the other way around than one pumper buffers them. -/
theorem two_pumpers_turn_bytes_around :
    ∃ w : Endpoint (Logged Radio.Simulated) Store.Memory,
      Endpoint.create {} none ⟨{}, []⟩ {} = .ok w ∧
      let one := (idle w).run (sentTwice ++ [.take true, .handle true, .take true, .handle true])
      let two := (idle w).run (sentTwice ++ [.take false, .take true, .handle true, .handle false])
      one.endpoint.buffered = [1, 2] ∧ two.endpoint.buffered = [2, 1] ∧ two.held = [] ∧
      two.endpoint.inbox = [] ∧ two.endpoint.isUp = true ∧ ¬ two.InOrder := by
  have hw : Endpoint.create {} none (⟨{}, []⟩ : Logged Radio.Simulated) ({} : Store.Memory) =
      .ok _ := rfl
  refine ⟨_, hw, ?_⟩
  unfold InOrder
  exact ⟨by decide, by decide, rfl, by decide, by decide, by decide⟩

end Pumpers

end VehicleLink
