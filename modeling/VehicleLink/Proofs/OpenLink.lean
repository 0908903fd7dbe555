import VehicleLink.Proofs.WorkerRun
import VehicleLink.Proofs.Coupled
import VehicleLink.Worker.Scripted

/-!
# The link that is open

Which links the adapter has open is told by what reached a worker and what the adapter answered to
it (`openLinks`), without looking into the worker. At any time there is at most one, and it is the
worker's own link; the worker holds one exactly if its last report on the link was that it came up
(`link_mirrored`).
-/

namespace VehicleLink

/-! ## Links from outside -/

/-- What bears on the links of an adapter. -/
inductive Deed where
  /-- A stimulus reached the worker. -/
  | reached (x : Stimulus)
  /-- The worker made a request, and the adapter answered. -/
  | asked (r : Request) (ok : Bool)

/-- The peripherals with an open link after one deed more: a connection that succeeded opens a
link, a request to close it and a report that it is lost end it. -/
def openAfter (opened : List String) : Deed → List String
  | .asked (.connect id _) true => opened ++ [id]
  | .asked (.disconnect id) _ => opened.filter (· ≠ id)
  | .reached (.report (.disconnected id)) => opened.filter (· ≠ id)
  | _ => opened

/-- The peripherals with an open link. -/
def openLinks (ds : List Deed) : List String := ds.foldl openAfter []

theorem openLinks_append (ds es : List Deed) :
    openLinks (ds ++ es) = es.foldl openAfter (openLinks ds) := List.foldl_append ..

/-- At no time in the course of the deeds more than one link is open. -/
def AtMostOne (opened : List String) (ds : List Deed) : Prop :=
  ∀ pre, pre <+: ds → (pre.foldl openAfter opened).length ≤ 1

theorem atMostOne_nil {opened : List String} : AtMostOne opened [] ↔ opened.length ≤ 1 := by
  simp [AtMostOne]

theorem atMostOne_cons {opened : List String} {d : Deed} {ds : List Deed} :
    AtMostOne opened (d :: ds) ↔ opened.length ≤ 1 ∧ AtMostOne (openAfter opened d) ds := by
  simp only [AtMostOne, List.prefix_cons_iff]
  constructor
  · exact fun h => ⟨h [] (.inl rfl), fun pre hpre => h (d :: pre) (.inr ⟨pre, rfl, hpre⟩)⟩
  · rintro ⟨hnil, hcons⟩ _ (rfl | ⟨pre, rfl, hpre⟩)
    · exact hnil
    · exact hcons pre hpre

theorem atMostOne_append {opened : List String} {ds es : List Deed} :
    AtMostOne opened (ds ++ es) ↔
      AtMostOne opened ds ∧ AtMostOne (ds.foldl openAfter opened) es := by
  induction ds generalizing opened with
  | nil =>
    rw [List.nil_append, atMostOne_nil]
    exact ⟨fun h => ⟨h [] (List.nil_prefix), h⟩, And.right⟩
  | cons d ds ih => simp [atMostOne_cons, ih, and_assoc]

/-- From one set of open links to another, with at most one open all the time. -/
structure Links (opened : List String) (ds : List Deed) (opened' : List String) : Prop where
  atMostOne : AtMostOne opened ds
  ends : ds.foldl openAfter opened = opened'

theorem Links.append {opened opened' opened'' : List String} {ds es : List Deed}
    (h : Links opened ds opened') (h' : Links opened' es opened'') :
    Links opened (ds ++ es) opened'' where
  atMostOne := atMostOne_append.2 ⟨h.atMostOne, h.ends.symm ▸ h'.atMostOne⟩
  ends := by rw [List.foldl_append, h.ends, h'.ends]

namespace Worker

variable {α : Type}

/-! ## One turn -/

/-- The link of a worker, as a list. -/
def held (current : Option Peripheral) : List String := current.toList.map (·.id)

theorem held_length (current : Option Peripheral) : (held current).length ≤ 1 := by
  cases current <;> simp [held]

theorem held_eq_nil {current : Option Peripheral} : held current = [] ↔ current = none := by
  cases current <;> simp [held]

def asking (rs : List (Request × Bool)) : List Deed := rs.map fun r => .asked r.1 r.2

theorem asking_append (rs rs' : List (Request × Bool)) :
    asking (rs ++ rs') = asking rs ++ asking rs' := List.map_append

theorem links_connect (p : Peripheral) (limit : Nanos) (ok : Bool) :
    Links [] (asking [(.connect p.id limit, ok)]) (held (if ok then some p else none)) := by
  cases ok <;> exact ⟨by simp [asking, openAfter, atMostOne_cons, atMostOne_nil], rfl⟩

theorem Closes.links {current : Option Peripheral} {rs : List (Request × Bool)}
    (h : Closes current rs) : Links (held current) (asking rs) [] := by
  cases h with
  | none => exact ⟨by simp [asking, held, atMostOne_nil], rfl⟩
  | link p ok =>
    exact ⟨by simp [asking, held, openAfter, atMostOne_cons, atMostOne_nil],
      by simp [asking, held, openAfter]⟩

theorem Unread.links {id : String} {c : Uuid} {rs : List (Request × Bool)} (h : Unread id c rs)
    {opened : List String} (ho : opened.length ≤ 1) : Links opened (asking rs) opened := by
  cases h <;> exact ⟨by simp [asking, openAfter, atMostOne_cons, atMostOne_nil, ho], rfl⟩

/-- A stimulus that is not the loss of the link ends no link. -/
theorem links_reached {current : Option Peripheral} {x : Stimulus}
    (hx : ∀ p, current = some p → x ≠ .report (.disconnected p.id)) :
    Links (held current) [.reached x] (held current) := by
  have hsame : openAfter (held current) (.reached x) = held current := by
    unfold openAfter
    split
    · cases ‹Deed.reached x = _›
    · cases ‹Deed.reached x = _›
    · rename_i id hid
      cases hid
      refine List.filter_eq_self.2 fun k hk => ?_
      obtain ⟨p, hp, rfl⟩ := List.mem_map.1 hk
      have hne : p.id ≠ id := fun h => hx p (Option.mem_toList.1 hp) (h ▸ rfl)
      simpa using hne
    · rfl
  exact ⟨by simp [atMostOne_cons, atMostOne_nil, hsame, held_length], hsame⟩

theorem Responds.links {w : Worker α} {x : Stimulus} {rs : List (Request × Bool)} {es : List Event}
    {after : Holding} (h : Responds w x rs es after) :
    Links (held w.current) (.reached x :: asking rs) (held after.current) := by
  have hlen := held_length w.current
  have call (c : Call) : Links (held w.current) [.reached (.call c)] (held w.current) :=
    links_reached fun _ _ => nofun
  cases h with
  | connects p closes =>
    rw [asking_append]
    exact (call _).append (closes.links.append (links_connect p _ true))
  | connectFails p closes =>
    rw [asking_append]
    exact (call _).append (closes.links.append (links_connect p _ false))
  | unknown a closes => exact (call _).append closes.links
  | disconnects p ok link => exact (call _).append (link ▸ (Closes.link p ok).links)
  | noLink link => exact (call _).append (link ▸ Closes.none.links)
  | notifyFails c p ok link unread =>
    rw [asking_append]
    exact (call _).append ((unread.links hlen).append (link ▸ (Closes.link p ok).links))
  | notifiesNothing c link => exact (call _).append (link ▸ Closes.none.links)
  | sees id d he window =>
    exact links_reached fun _ _ => by rcases he with rfl | rfl <;> nofun
  | loses p link =>
    rw [link]
    exact ⟨by simp [asking, held, openAfter, atMostOne_cons, atMostOne_nil],
      by simp [asking, held, openAfter]⟩
  | overlooks e kept => exact links_reached fun p hp heq => kept p hp (by cases heq; rfl)
  | _ => exact ⟨by simp [asking, openAfter, atMostOne_cons, atMostOne_nil, hlen], rfl⟩

/-- What a turn reports about the link, and what it leaves of it. -/
inductive Told (w : Worker α) (x : Stimulus) (rs : List (Request × Bool)) (es : List Event) :
    Option Peripheral → Prop
  | nothing {current : Option Peripheral} (kept : current = w.current)
      (hes : ∀ e ∈ es, e.isLink = false) : Told w x rs es current
  | up (p : Peripheral) (hes : es = [.linkUp]) : Told w x rs es (some p)
  /-- A link came to its end. -/
  | ended (hes : es = [.linkDown]) (link : w.current ≠ none) : Told w x rs es none
  /-- A call to open a link failed. -/
  | failed (a : Address) (hes : es = [.linkDown]) (call : x = .call (.connect a))
      (hrs : ∀ id limit, (.connect id limit, true) ∉ rs) : Told w x rs es none

theorem Responds.told {w : Worker α} {x : Stimulus} {rs : List (Request × Bool)} {es : List Event}
    {after : Holding} (h : Responds w x rs es after) : Told w x rs es after.current := by
  cases h with
  | connects p closes => exact .up p rfl
  | connectFails p closes =>
    refine .failed p.address rfl rfl fun id limit => ?_
    simpa using closes.not_connected id limit
  | unknown a closes => exact .failed a rfl rfl closes.not_connected
  | disconnects p ok link => exact .ended rfl (by simp [link])
  | notifyFails c p ok link unread => exact .ended rfl (by simp [link])
  | loses p link => exact .ended rfl (by simp [link])
  | noLink link => exact .nothing link.symm (by simp)
  | notifiesNothing c link => exact .nothing link.symm (by simp)
  | _ => exact .nothing rfl (by simp [Event.isLink])

/-! ## Runs -/

variable [Adapter α]

namespace Turn

/-- What happened in the turn that bears on links. -/
def deeds (t : Turn α) : List Deed := .reached t.stimulus :: asking t.requests

theorem links (t : Turn α) : Links (held t.before.current) t.deeds (held t.after.current) :=
  t.responds.1.links

theorem told (t : Turn α) : Told t.before t.stimulus t.requests t.events t.after.current :=
  t.responds.1.told

end Turn

theorem links_run (adapter : α) (limit : Nanos) (steps : List (Step α)) :
    Links [] ((turns steps (fresh adapter limit)).flatMap Turn.deeds)
      (held ((fresh adapter limit).run steps).current) := by
  refine run_induction (P := fun ts h => Links [] (ts.flatMap Turn.deeds) (held h.current))
    ⟨atMostOne_nil.2 (Nat.zero_le 1), rfl⟩ (fun ts t h => ?_) steps
  rw [List.flatMap_append, List.flatMap_singleton]
  exact h.append t.links

theorem current_run (adapter : α) (limit : Nanos) (steps : List (Step α)) :
    ((fresh adapter limit).run steps).current.isSome = true ↔
      lastLink ((turns steps (fresh adapter limit)).flatMap Turn.events) = some .linkUp := by
  refine run_induction (P := fun ts h =>
    h.current.isSome = true ↔ lastLink (ts.flatMap Turn.events) = some .linkUp)
    (by simp [fresh, lastLink]) (fun ts t h => ?_) steps
  rw [List.flatMap_append, List.flatMap_singleton, lastLink_append, holding_current]
  have htold := t.told
  generalize t.events = es at htold ⊢
  generalize t.after.current = current at htold ⊢
  cases htold with
  | nothing kept hes => simpa [kept, lastLink_eq_none hes] using h
  | up p hes => simp [hes, lastLink, Event.isLink]
  | ended hes link => simp [hes, lastLink, Event.isLink]
  | failed a hes call hrs => simp [hes, lastLink, Event.isLink]

/-- Any run of a worker, with any adapter. The worker holds a link exactly if its last report on the
link was that it came up. The links that the adapter has open are that link alone, or none, and at
no time there is more than one. A link is reported down only in a turn in which a call to open one
failed, or in which the open link ended. -/
theorem link_mirrored (adapter : α) (limit : Nanos) (steps : List (Step α)) :
    let ts := turns steps (fresh adapter limit)
    let w := (fresh adapter limit).run steps
    (w.current.isSome = true ↔ lastLink (ts.flatMap Turn.events) = some .linkUp) ∧
    openLinks (ts.flatMap Turn.deeds) = w.current.toList.map (·.id) ∧
    (∀ ds, ds <+: ts.flatMap Turn.deeds → (openLinks ds).length ≤ 1) ∧
    ∀ before t after, ts = before ++ t :: after → .linkDown ∈ t.events →
      t.events = [.linkDown] ∧
      ((∃ a, t.stimulus = .call (.connect a)) ∧
          (∀ id limit, (.connect id limit, true) ∉ t.requests) ∨
        openLinks (before.flatMap Turn.deeds) ≠ [] ∧
          openLinks ((before ++ [t]).flatMap Turn.deeds) = []) := by
  intro ts w
  have hlinks := links_run adapter limit steps
  refine ⟨current_run adapter limit steps, hlinks.ends, hlinks.atMostOne, ?_⟩
  intro before t after hsplit hdown
  obtain ⟨first, hfirst, hrun⟩ := turns_split hsplit
  have hopen : openLinks (before.flatMap Turn.deeds) = held t.before.current := by
    rw [← hfirst, ← hrun]
    exact (links_run adapter limit first).ends
  have hleft : openLinks ((before ++ [t]).flatMap Turn.deeds) = held t.after.current := by
    rw [List.flatMap_append, List.flatMap_singleton, openLinks_append, hopen]
    exact t.links.ends
  have htold := t.told
  rw [hopen, hleft]
  generalize t.after.current = current at htold ⊢
  cases htold with
  | nothing kept hes => exact absurd (hes _ hdown) (by simp [Event.isLink])
  | up p hes => simp [hes] at hdown
  | ended hes link => exact ⟨hes, .inr ⟨mt held_eq_nil.1 link, rfl⟩⟩
  | failed a hes call hrs => exact ⟨hes, .inl ⟨⟨a, call⟩, hrs⟩⟩

/-- A second link takes the place of the first, without a report that the first is down; that the
first is lost is no news then. -/
example :
    let adapter : ScriptedAdapter :=
      { peripherals := [{ id := "a", address := ⟨0, 0, 0, 0, 0, 10⟩ },
          { id := "b", address := ⟨0, 0, 0, 0, 0, 11⟩ }] }
    let ts := turns [.stimulus (.call (.connect ⟨0, 0, 0, 0, 0, 10⟩)),
      .stimulus (.call (.connect ⟨0, 0, 0, 0, 0, 11⟩)), .stimulus (.report (.disconnected "a"))]
      (fresh adapter 0)
    ts.map Turn.events = [[.linkUp], [.linkUp], []] ∧
      openLinks (ts.flatMap Turn.deeds) = ["b"] := by
  decide

end Worker

end VehicleLink
