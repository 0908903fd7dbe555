import VehicleLink.Worker

/-!
# What a worker does

`Responds` lists once what a stimulus can come to: the requests with their answers, the events, and
what the worker holds after it. Every step is one of its cases, whatever the adapter answers and
wherever the events go (`comes`).
-/

namespace VehicleLink

namespace Channel

@[simp] theorem sendAll_nil (c : Channel) : c.sendAll [] = c := by
  rw [sendAll, List.append_nil]
  exact ite_self c

theorem send_eq (e : Event) (c : Channel) : (c.send e).2 = c.sendAll [e] := by
  unfold send sendAll
  split <;> rfl

end Channel

/-! ## Requests -/

/-- From one state of an adapter to another by requests, each with its answer. -/
inductive Asked {α : Type} [Adapter α] (a : α) : List (Request × Bool) → α → Prop
  | none : Asked a [] a
  | more {b c : α} {rs : List (Request × Bool)} {r : Request} {ok : Bool} (before : Asked a rs b)
      (h : Adapter.request r b = (ok, c)) : Asked a (rs ++ [(r, ok)]) c

namespace Asked

variable {α : Type} [Adapter α] {a b c : α} {rs rs' : List (Request × Bool)} {r : Request}
  {ok : Bool}

@[simp] theorem refl (a : α) : Asked a [] a := .none

theorem one (h : Adapter.request r a = (ok, b)) : Asked a [(r, ok)] b := .more .none h

theorem trans (h : Asked a rs b) (h' : Asked b rs' c) : Asked a (rs ++ rs') c := by
  induction h' with
  | none => exact (List.append_nil rs).symm ▸ h
  | more before hr ih => exact (List.append_assoc ..) ▸ ih.more hr

end Asked

/-! ## What a stimulus comes to -/

/-- What a worker holds: its link, whether a scan window is open, and the notifications it reads. -/
structure Holding where
  current : Option Peripheral
  scanning : Bool
  subscription : Option Subscription

/-- Without the link, and without the notifications that were read from it. -/
def Holding.unlinked (h : Holding) : Holding := { h with current := none, subscription := none }

@[simp] theorem Holding.unlinked_current (h : Holding) : h.unlinked.current = none := rfl

@[simp] theorem Holding.unlinked_scanning (h : Holding) : h.unlinked.scanning = h.scanning := rfl

@[simp] theorem Holding.unlinked_subscription (h : Holding) : h.unlinked.subscription = none := rfl

/-- Without the link. The notifications are dropped with a link, and without one they are not looked
at. -/
def Holding.vacated (h : Holding) : Holding :=
  { h with
    current := none
    subscription := if h.current.isSome then none else h.subscription }

/-- Nothing is read where nothing was read without a link. -/
theorem Holding.vacated_subscription {h : Holding}
    (hidle : h.current = none → h.subscription = none) : h.vacated.subscription = none := by
  rw [vacated]
  cases hp : h.current with
  | none => exact hidle hp
  | some p => rfl

namespace Worker

variable {α : Type}

def holding (w : Worker α) : Holding := ⟨w.current, w.scanning, w.subscription⟩

@[simp] theorem holding_current (w : Worker α) : w.holding.current = w.current := rfl

@[simp] theorem holding_scanning (w : Worker α) : w.holding.scanning = w.scanning := rfl

@[simp] theorem holding_subscription (w : Worker α) : w.holding.subscription = w.subscription := rfl

/-- The worker with its events going elsewhere. -/
def sendingTo (c : Channel) (w : Worker α) : Worker α := { w with outbox := c }

/-- The requests by which a link is closed if there is one. -/
inductive Closes : Option Peripheral → List (Request × Bool) → Prop
  | none : Closes none []
  | link (p : Peripheral) (ok : Bool) : Closes (some p) [(.disconnect p.id, ok)]

theorem Closes.not_connected {current : Option Peripheral} {rs : List (Request × Bool)}
    (h : Closes current rs) (id : String) (limit : Nanos) : (.connect id limit, true) ∉ rs := by
  cases h <;> simp

/-- The requests by which the notifications of a characteristic are not had. -/
inductive Unread (id : String) (c : Uuid) : List (Request × Bool) → Prop
  | missing : Unread id c []
  | refused : Unread id c [(.subscribe id c, false)]
  | noStream : Unread id c [(.subscribe id c, true), (.notifications id, false)]

/-- What a stimulus comes to: the requests with their answers, the events, and what the worker holds
after it. -/
inductive Responds (w : Worker α) :
    Stimulus → List (Request × Bool) → List Event → Holding → Prop
  | scanStarts (d : Nanos) :
      Responds w (.call (.scan d)) [(.startScan, true)] [] { w.holding with scanning := true }
  | scanRefused (d : Nanos) :
      Responds w (.call (.scan d)) [(.startScan, false)] [.scanComplete] w.holding
  | scanStops (ok : Bool) (window : w.scanning = true) :
      Responds w (.call .stopScan) [(.stopScan, ok)] [] { w.holding with scanning := false }
  | noScan (window : w.scanning = false) : Responds w (.call .stopScan) [] [] w.holding
  | connects (p : Peripheral) {rs : List (Request × Bool)} (closes : Closes w.current rs) :
      Responds w (.call (.connect p.address)) (rs ++ [(.connect p.id w.connectTimeout, true)])
        [.linkUp] { w.holding.vacated with current := some p }
  | connectFails (p : Peripheral) {rs : List (Request × Bool)} (closes : Closes w.current rs) :
      Responds w (.call (.connect p.address)) (rs ++ [(.connect p.id w.connectTimeout, false)])
        [.linkDown] w.holding.vacated
  | unknown (a : Address) {rs : List (Request × Bool)} (closes : Closes w.current rs) :
      Responds w (.call (.connect a)) rs [.linkDown] w.holding.vacated
  | disconnects (p : Peripheral) (ok : Bool) (link : w.current = some p) :
      Responds w (.call .disconnect) [(.disconnect p.id, ok)] [.linkDown] w.holding.unlinked
  | noLink (link : w.current = none) : Responds w (.call .disconnect) [] [] w.holding.unlinked
  | discovers (p : Peripheral) (ok : Bool) (link : w.current = some p) :
      Responds w (.call .discover) [(.discover p.id, ok)] [.servicesDiscovered ok] w.holding
  | discoversNothing (link : w.current = none) :
      Responds w (.call .discover) [] [.servicesDiscovered false] w.holding
  | notifies (c : Characteristic) (p : Peripheral) (link : w.current = some p) :
      Responds w (.call (.enableNotify c))
        [(.subscribe p.id (Gatt.characteristic c), true), (.notifications p.id, true)] []
        { w.holding with subscription := some ⟨p.id, Gatt.characteristic c⟩ }
  | notifyFails (c : Characteristic) (p : Peripheral) (ok : Bool) {rs : List (Request × Bool)}
      (link : w.current = some p) (unread : Unread p.id (Gatt.characteristic c) rs) :
      Responds w (.call (.enableNotify c)) (rs ++ [(.disconnect p.id, ok)]) [.linkDown]
        w.holding.unlinked
  | notifiesNothing (c : Characteristic) (link : w.current = none) :
      Responds w (.call (.enableNotify c)) [] [] w.holding.unlinked
  | writes (c : Characteristic) (bytes : List UInt8) (p : Peripheral) (ok : Bool)
      (link : w.current = some p) :
      Responds w (.call (.write c bytes)) [(.write p.id (Gatt.characteristic c) bytes, ok)]
        [.writeComplete ok] w.holding
  | writesNothing (c : Characteristic) (bytes : List UInt8) :
      Responds w (.call (.write c bytes)) [] [.writeComplete false] w.holding
  | sees (id : String) (d : Device) {e : AdapterEvent}
      (he : e = .discovered id ∨ e = .updated id) (window : w.scanning = true) :
      Responds w (.report e) [] [.scanResult d] w.holding
  | loses (p : Peripheral) (link : w.current = some p) :
      Responds w (.report (.disconnected p.id)) [] [.linkDown] w.holding.unlinked
  | overlooks (e : AdapterEvent) (kept : ∀ p, w.current = some p → e ≠ .disconnected p.id) :
      Responds w (.report e) [] [] w.holding
  | scanEnds (ok : Bool) (window : w.scanning = true) :
      Responds w .scanOver [(.stopScan, ok)] [.scanComplete] { w.holding with scanning := false }
  | noWindow (window : w.scanning = false) : Responds w .scanOver [] [] w.holding
  /-- A notification that nobody receives is the last one that is read. -/
  | delivers (id : String) (c : Uuid) (bytes : List UInt8) (received : Bool)
      (reads : w.subscription = some ⟨id, c⟩) :
      Responds w (.notified id c bytes) [] [.received bytes]
        { w.holding with subscription := if received then w.subscription else none }
  | unread (id : String) (c : Uuid) (bytes : List UInt8) (other : w.subscription ≠ some ⟨id, c⟩) :
      Responds w (.notified id c bytes) [] [] w.holding
  | streamEnds (id : String) (reads : w.subscription.any (·.peripheral == id) = true) :
      Responds w (.streamEnded id) [] [] { w.holding with subscription := none }
  | noStream (id : String) (other : w.subscription.any (·.peripheral == id) = false) :
      Responds w (.streamEnded id) [] [] w.holding

variable [Adapter α]

/-- What a step comes to, wherever its events go. -/
def Comes (x : Stimulus) (w : Worker α) : Prop :=
  ∃ rs es, ∀ c : Channel, let v := (w.sendingTo c).step x
    Asked w.adapter rs v.adapter ∧ v.outbox = c.sendAll es ∧ Responds w x rs es v.holding

/-- The worker with an adapter, what it holds and where its events go taken from elsewhere. -/
def become (adapter : α) (h : Holding) (c : Channel) (w : Worker α) : Worker α :=
  { w with
    adapter, current := h.current, scanning := h.scanning, subscription := h.subscription
    outbox := c }

theorem comes_of {x : Stimulus} {w : Worker α} {adapter : α} {rs : List (Request × Bool)}
    {es : List Event} {after : Holding} (hrs : Asked w.adapter rs adapter)
    (h : Responds w x rs es after)
    (hstep : ∀ c, (w.sendingTo c).step x = w.become adapter after (c.sendAll es)) : Comes x w := by
  refine ⟨rs, es, fun c => ?_⟩
  rw [hstep]
  exact ⟨hrs, rfl, h⟩

theorem comes_unmoved {x : Stimulus} {w : Worker α} (h : Responds w x [] [] w.holding)
    (hstep : ∀ c, (w.sendingTo c).step x = w.sendingTo c) : Comes x w := by
  refine comes_of .none h fun c => ?_
  rw [hstep, Channel.sendAll_nil]
  rfl

/-! ## Calls -/

theorem comes_scan (d : Nanos) (w : Worker α) : Comes (.call (.scan d)) w := by
  rcases h : Adapter.request .startScan w.adapter with ⟨ok, adapter⟩
  cases ok with
  | false =>
    refine comes_of (.one h) (.scanRefused d) fun c => ?_
    simp [step, obey, ask, sendingTo, h, emit, Channel.send_eq, become]
  | true =>
    refine comes_of (.one h) (.scanStarts d) fun c => ?_
    simp [step, obey, ask, sendingTo, h, become]

theorem comes_stopScan (w : Worker α) : Comes (.call .stopScan) w := by
  rcases h : Adapter.request .stopScan w.adapter with ⟨ok, adapter⟩
  cases hs : w.scanning with
  | false => exact comes_unmoved (.noScan hs) fun c => by simp [step, obey, sendingTo, hs]
  | true =>
    refine comes_of (.one h) (.scanStops ok hs) fun c => ?_
    simp [step, obey, tell, ask, sendingTo, hs, h, become]

/-- The worker without its link, after the requests that close it. -/
theorem dropLink_closes (w : Worker α) :
    ∃ rs adapter, Closes w.current rs ∧ Asked w.adapter rs adapter ∧
      ∀ c, (w.sendingTo c).dropLink =
        (w.current.isSome, w.become adapter w.holding.unlinked c) := by
  cases hp : w.current with
  | none =>
    exact ⟨[], w.adapter, .none, .none, fun c => by simp [dropLink, sendingTo, hp, become]⟩
  | some p =>
    rcases h : Adapter.request (.disconnect p.id) w.adapter with ⟨ok, adapter⟩
    exact ⟨_, adapter, .link p ok, .one h,
      fun c => by simp [dropLink, sendingTo, hp, tell, ask, h, become]⟩

theorem closeLink_closes (w : Worker α) :
    ∃ rs adapter, Closes w.current rs ∧ Asked w.adapter rs adapter ∧
      ∀ c, (w.sendingTo c).closeLink = w.become adapter w.holding.unlinked
        (c.sendAll (if w.current.isSome then [.linkDown] else [])) := by
  obtain ⟨rs, adapter, hcloses, hrs, hdrop⟩ := dropLink_closes w
  refine ⟨rs, adapter, hcloses, hrs, fun c => ?_⟩
  cases h : w.current.isSome <;> simp [closeLink, hdrop, h, emit, Channel.send_eq, become]

theorem vacate_closes (w : Worker α) :
    ∃ rs adapter, Closes w.current rs ∧ Asked w.adapter rs adapter ∧
      ∀ c, (w.sendingTo c).vacate = w.become adapter w.holding.vacated c := by
  obtain ⟨rs, adapter, hcloses, hrs, hdrop⟩ := dropLink_closes w
  cases hp : w.current with
  | none =>
    exact ⟨[], w.adapter, .none, .none,
      fun c => by simp [vacate, sendingTo, hp, become, Holding.vacated]⟩
  | some p =>
    refine ⟨rs, adapter, hp ▸ hcloses, hrs, fun c => ?_⟩
    have hopen : (w.sendingTo c).current.isSome = true := by simp [sendingTo, hp]
    rw [vacate, if_pos hopen, hdrop]
    simp [become, Holding.vacated, hp]

theorem comes_connect (a : Address) (w : Worker α) : Comes (.call (.connect a)) w := by
  obtain ⟨rs, adapter, hcloses, hrs, hvacate⟩ := vacate_closes w
  let v : Worker α := w.become adapter w.holding.vacated {}
  cases hfind : v.find a with
  | none =>
    refine comes_of hrs (.unknown a hcloses) fun c => ?_
    have hfind' : (w.become adapter w.holding.vacated c).find a = none := hfind
    simp only [step, obey, openLink, hvacate, hfind']
    simp [emit, Channel.send_eq, become]
  | some p =>
    obtain ⟨ps, -, hps⟩ := Option.bind_eq_some_iff.1 hfind
    obtain rfl : p.address = a := by simpa using List.find?_some hps
    have hfind' (c : Channel) :
        (w.become adapter w.holding.vacated c).find p.address = some p := hfind
    rcases h : Adapter.request (.connect p.id w.connectTimeout) adapter with ⟨ok, adapter'⟩
    cases ok with
    | false =>
      refine comes_of (hrs.more h) (.connectFails p hcloses) fun c => ?_
      simp only [step, obey, openLink, hvacate, hfind']
      simp [ask, h, emit, Channel.send_eq, become]
    | true =>
      refine comes_of (hrs.more h) (.connects p hcloses) fun c => ?_
      simp only [step, obey, openLink, hvacate, hfind']
      simp [ask, h, emit, Channel.send_eq, become]

theorem comes_disconnect (w : Worker α) : Comes (.call .disconnect) w := by
  obtain ⟨rs, adapter, hcloses, hrs, hclose⟩ := closeLink_closes w
  generalize hp : w.current = link at hcloses
  cases hcloses with
  | none =>
    refine comes_of hrs (.noLink hp) fun c => ?_
    simp [step, obey, hclose, hp]
  | link p ok =>
    refine comes_of hrs (.disconnects p ok hp) fun c => ?_
    simp [step, obey, hclose, hp]

theorem comes_discover (w : Worker α) : Comes (.call .discover) w := by
  cases hp : w.current with
  | none =>
    refine comes_of .none (.discoversNothing hp) fun c => ?_
    simp [step, obey, sendingTo, hp, emit, Channel.send_eq, become]
  | some p =>
    rcases h : Adapter.request (.discover p.id) w.adapter with ⟨ok, adapter⟩
    refine comes_of (.one h) (.discovers p ok hp) fun c => ?_
    simp [step, obey, sendingTo, hp, ask, h, emit, Channel.send_eq, become]

theorem target?_eq_some {c : Characteristic} {w : Worker α} {id : String} {u : Uuid}
    (h : w.target? c = some (id, u)) :
    ∃ p, w.current = some p ∧ id = p.id ∧ u = Gatt.characteristic c := by
  obtain ⟨p, hp, hif⟩ := Option.bind_eq_some_iff.1 h
  dsimp only at hif
  split at hif
  · cases hif
    exact ⟨p, hp, rfl, rfl⟩
  · cases hif

theorem comes_write (k : Characteristic) (bytes : List UInt8) (w : Worker α) :
    Comes (.call (.write k bytes)) w := by
  cases ht : w.target? k with
  | none =>
    refine comes_of .none (.writesNothing k bytes) fun c => ?_
    have ht' : (w.sendingTo c).target? k = none := ht
    simp only [step, obey, Worker.write, ht']
    simp [sendingTo, emit, Channel.send_eq, become]
  | some t =>
    obtain ⟨id, u⟩ := t
    obtain ⟨p, hp, rfl, rfl⟩ := target?_eq_some ht
    rcases h : Adapter.request (.write p.id (Gatt.characteristic k) bytes) w.adapter with
      ⟨ok, adapter⟩
    refine comes_of (.one h) (.writes k bytes p ok hp) fun c => ?_
    have ht' : (w.sendingTo c).target? k = some (p.id, Gatt.characteristic k) := ht
    simp only [step, obey, Worker.write, ht']
    simp [ask, sendingTo, h, emit, Channel.send_eq, become]

/-- Without the notifications the link is closed. -/
theorem comes_unread {adapter : α} {k : Characteristic} {w : Worker α}
    {rs : List (Request × Bool)} {p : Peripheral} (hp : w.current = some p)
    (unread : Unread p.id (Gatt.characteristic k) rs) (hrs : Asked w.adapter rs adapter)
    (hsub : ∀ c, (w.sendingTo c).subscribe k = (false, w.become adapter w.holding c)) :
    Comes (.call (.enableNotify k)) w := by
  let u : Worker α := w.become adapter w.holding {}
  obtain ⟨ds, adapter', hcloses, hds, hclose⟩ := closeLink_closes u
  have hup : u.current = some p := hp
  rw [hup] at hcloses
  cases hcloses with
  | link p ok =>
    refine comes_of (hrs.trans hds) (.notifyFails k p ok hp unread) fun c => ?_
    have hclose' : (w.become adapter w.holding c).closeLink =
        u.become adapter' u.holding.unlinked (c.sendAll [.linkDown]) := by
      rw [show w.become adapter w.holding c = u.sendingTo c from rfl, hclose, hup]
      rfl
    simp only [step, obey, hsub, hclose']
    rfl

theorem comes_enableNotify (k : Characteristic) (w : Worker α) :
    Comes (.call (.enableNotify k)) w := by
  cases ht : w.target? k with
  | none =>
    have ht' (c : Channel) : (w.sendingTo c).target? k = none := ht
    have hsub (c : Channel) : (w.sendingTo c).subscribe k = (false, w.sendingTo c) := by
      simp only [subscribe, ht']
    cases hp : w.current with
    | none =>
      obtain ⟨rs, adapter, hcloses, hrs, hclose⟩ := closeLink_closes w
      rw [hp] at hcloses
      cases hcloses
      refine comes_of hrs (.notifiesNothing k hp) fun c => ?_
      simp [step, obey, hsub, hclose, hp]
    | some p => exact comes_unread hp .missing .none hsub
  | some t =>
    obtain ⟨id, u⟩ := t
    obtain ⟨p, hp, rfl, rfl⟩ := target?_eq_some ht
    have ht' (c : Channel) : (w.sendingTo c).target? k = some (p.id, Gatt.characteristic k) := ht
    rcases h : Adapter.request (.subscribe p.id (Gatt.characteristic k)) w.adapter with
      ⟨ok, adapter⟩
    cases ok with
    | false =>
      refine comes_unread hp .refused (.one h) fun c => ?_
      simp only [subscribe, ht']
      simp [ask, sendingTo, h, become]
    | true =>
      rcases h' : Adapter.request (.notifications p.id) adapter with ⟨ok, adapter'⟩
      have hboth := (Asked.one h).more h'
      cases ok with
      | false =>
        refine comes_unread hp .noStream hboth fun c => ?_
        simp only [subscribe, ht']
        simp [ask, sendingTo, h, h', become]
      | true =>
        refine comes_of hboth (.notifies k p hp) fun c => ?_
        simp only [step, obey, subscribe, ht']
        simp [ask, sendingTo, h, h', become]

/-! ## What else moves a worker -/

theorem comes_sighted {id : String} {e : AdapterEvent} (he : e = .discovered id ∨ e = .updated id)
    (w : Worker α)
    (hstep : ∀ c, (w.sendingTo c).step (.report e) = (w.sendingTo c).sighted id) :
    Comes (.report e) w := by
  have overlooked (h : ∀ c, (w.sendingTo c).sighted id = w.sendingTo c) : Comes (.report e) w := by
    refine comes_unmoved (.overlooks e fun p _ => ?_) fun c => (hstep c).trans (h c)
    rcases he with rfl | rfl <;> nofun
  cases hs : w.scanning with
  | false => exact overlooked fun c => by simp [sighted, sendingTo, hs]
  | true =>
    cases hd : w.describe id with
    | none =>
      have hd' (c : Channel) : (w.sendingTo c).describe id = none := hd
      exact overlooked fun c => by simp [sighted, hd']
    | some d =>
      refine comes_of .none (.sees id d he hs) fun c => ?_
      have hd' : (w.sendingTo c).describe id = some d := hd
      have hs' : (w.sendingTo c).scanning = true := hs
      simp only [hstep, sighted, hs', hd']
      simp [emit, Channel.send_eq, sendingTo, become]

theorem comes_report (e : AdapterEvent) (w : Worker α) : Comes (.report e) w := by
  cases e with
  | discovered id => exact comes_sighted (.inl rfl) w fun _ => rfl
  | updated id => exact comes_sighted (.inr rfl) w fun _ => rfl
  | connected id => exact comes_unmoved (.overlooks _ fun p _ => nofun) fun _ => rfl
  | disconnected id =>
    by_cases h : ∃ p, w.current = some p ∧ p.id = id
    · obtain ⟨p, hp, rfl⟩ := h
      refine comes_of .none (.loses p hp) fun c => ?_
      simp [step, note, sendingTo, hp, emit, Channel.send_eq, become]
    · have hother : ∀ p, w.current = some p → p.id ≠ id := fun p hp hid => h ⟨p, hp, hid⟩
      refine comes_unmoved (.overlooks _ fun p hp heq => ?_) fun c => ?_
      · cases heq
        exact hother p hp rfl
      · have hany : w.current.any (·.id == id) = false := by
          cases hp : w.current with
          | none => rfl
          | some p => simpa using hother p hp
        simp [step, note, sendingTo, hany]

theorem comes_scanOver (w : Worker α) : Comes .scanOver w := by
  cases hs : w.scanning with
  | false => exact comes_unmoved (.noWindow hs) fun c => by simp [step, endScan, sendingTo, hs]
  | true =>
    rcases h : Adapter.request .stopScan w.adapter with ⟨ok, adapter⟩
    refine comes_of (.one h) (.scanEnds ok hs) fun c => ?_
    simp [step, endScan, sendingTo, hs, tell, ask, h, emit, Channel.send_eq, become]

theorem comes_notified (id : String) (k : Uuid) (bytes : List UInt8) (w : Worker α) :
    Comes (.notified id k bytes) w := by
  by_cases h : w.subscription = some ⟨id, k⟩
  · refine ⟨[], [.received bytes], fun c => ?_⟩
    have hstep : (w.sendingTo c).step (.notified id k bytes) = w.become w.adapter
        { w.holding with subscription := if c.isOpen then w.subscription else none }
        (c.sendAll [.received bytes]) := by
      cases hopen : c.isOpen <;>
        simp [step, deliver, sendingTo, h, Channel.send, Channel.sendAll, hopen, become]
    rw [hstep]
    exact ⟨.none, rfl, .delivers id k bytes c.isOpen h⟩
  · refine comes_unmoved (.unread id k bytes h) fun c => ?_
    simp [step, deliver, sendingTo, h]

theorem comes_streamEnded (id : String) (w : Worker α) : Comes (.streamEnded id) w := by
  cases h : w.subscription.any (·.peripheral == id) with
  | false =>
    refine comes_unmoved (.noStream id h) fun c => ?_
    simp [step, endStream, sendingTo, h]
  | true =>
    refine comes_of .none (.streamEnds id h) fun c => ?_
    simp [step, endStream, sendingTo, h, become]

theorem comes (x : Stimulus) (w : Worker α) : Comes x w := by
  cases x with
  | call c =>
    cases c with
    | scan d => exact comes_scan d w
    | stopScan => exact comes_stopScan w
    | connect a => exact comes_connect a w
    | disconnect => exact comes_disconnect w
    | discover => exact comes_discover w
    | enableNotify k => exact comes_enableNotify k w
    | write k bytes => exact comes_write k bytes w
  | report e => exact comes_report e w
  | scanOver => exact comes_scanOver w
  | notified id k bytes => exact comes_notified id k bytes w
  | streamEnded id => exact comes_streamEnded id w

/-- What a step does to a worker and its events. -/
theorem responds_step (x : Stimulus) (w : Worker α) :
    ∃ rs es, Asked w.adapter rs (w.step x).adapter ∧ (w.step x).outbox = w.outbox.sendAll es ∧
      Responds w x rs es (w.step x).holding := by
  obtain ⟨rs, es, h⟩ := comes x w
  exact ⟨rs, es, h w.outbox⟩

end Worker

end VehicleLink
