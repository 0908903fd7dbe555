import VehicleLink.Proofs.Attempts

/-!
# What writes and reports do

One inversion lemma for each operation that moves the link or the outbound bytes. Each lists all
that the operation can do, with the calls it makes, so that an invariant is a case analysis of
these lists and opens no operation.

* `drained_drain`: a drain leaves everything, or hands one fragment to the radio.
* `answered_write`, `written_write`: a write is turned away for one of three reasons, or queues its
  bytes and drains.
* `ended_disconnect`, `dropped_dropLink`: how a link is asked to end.
* `linkUpDone_onLinkUp`, `linkDownDone_onLinkDown`, `discoveredDone_onServicesDiscovered`,
  `completedDone_onWriteComplete`: what the reports on the link do.
-/

namespace VehicleLink

namespace Endpoint

variable {ρ σ : Type} [Radio ρ]

/-! ## Sending -/

omit [Radio ρ] in
/-- Two transports that want the same and have received the same bytes. -/
structure SameIntake (t t' : Transport) : Prop extends SameSetup t t' where
  inbound : t'.inbound = t.inbound := by rfl

omit [Radio ρ] in
/-- Two transports that want the same, with the same link, the same attempts at it and the same
received bytes. -/
structure SameCourse (t t' : Transport) : Prop extends SameSetup t t' where
  connection : t'.connection = t.connection := by rfl
  inbound : t'.inbound = t.inbound := by rfl
  candidates : t'.candidates = t.candidates := by rfl

theorem SameIntake.trans {t t' t'' : Transport} (h₁ : SameIntake t t') (h₂ : SameIntake t' t'') :
    SameIntake t t'' where
  toSameSetup := h₁.toSameSetup.trans h₂.toSameSetup
  inbound := h₂.inbound.trans h₁.inbound

theorem SameCourse.trans {t t' t'' : Transport} (h₁ : SameCourse t t') (h₂ : SameCourse t' t'') :
    SameCourse t t'' where
  toSameSetup := h₁.toSameSetup.trans h₂.toSameSetup
  connection := h₂.connection.trans h₁.connection
  inbound := h₂.inbound.trans h₁.inbound
  candidates := h₂.candidates.trans h₁.candidates

theorem SameCourse.intake {t t' : Transport} (h : SameCourse t t') : SameIntake t t' :=
  ⟨h.toSameSetup, h.inbound⟩

theorem SameTraffic.intake {t t' : Transport} (h : SameTraffic t t') : SameIntake t t' :=
  ⟨h.toSameSetup, h.inbound⟩

theorem Seek.traffic [DeviceStore σ] {target : Option Address} {w w' : Endpoint ρ σ}
    (h : Seek target w w') : SameTraffic w.transport w'.transport := by
  cases h with
  | idle ha => exact ha.link.toSameTraffic
  | tries cs hw hu hcs =>
    have ha := attempted_tryCandidates cs (hu.link.connection.trans hw)
    exact SameTraffic.trans {} (hu.link.toSameTraffic.trans ha.traffic)

omit [Radio ρ] in
/-- The outbound bytes after `queue` was left behind by a fragment that went out. -/
def leftBehind (queue : FragmentQueue) (w : Endpoint ρ σ) : Outbound :=
  { w.transport.outbound with
    queue, notBefore := some (w.now + w.transport.settings.writeDelay) }

/-- What a drain does; the flag tells whether a fragment was sent. -/
inductive Drained (w : Endpoint ρ σ) : Bool → Endpoint ρ σ → Prop
  | idle (h : w.transport.connection.isReady = true → w.transport.outbound.isDue w.now = true →
      w.transport.outbound.queue.next? = none) : Drained w false w
  | sent {w' : Endpoint ρ σ} (fragment : List UInt8) (queue : FragmentQueue)
      (ready : w.transport.connection.isReady = true)
      (next : w.transport.outbound.queue.next? = some (fragment, queue))
      (taken : (w.submit (.write .write fragment)).1 = true)
      (air : w'.air = (w.submit (.write .write fragment)).2.air) (now : w'.now = w.now)
      (course : SameCourse w.transport w'.transport)
      (outbound : w'.transport.outbound = w.leftBehind queue)
      (due : w.transport.outbound.isDue w.now = true) : Drained w true w'
  /-- The radio turned a fragment away, and the queue is dropped with it. -/
  | refused {w' : Endpoint ρ σ} (fragment : List UInt8) (queue : FragmentQueue)
      (ready : w.transport.connection.isReady = true)
      (next : w.transport.outbound.queue.next? = some (fragment, queue))
      (refused : (w.submit (.write .write fragment)).1 = false)
      (air : w'.air = (w.submit (.write .write fragment)).2.air) (now : w'.now = w.now)
      (course : SameCourse w.transport w'.transport)
      (outbound : w'.transport.outbound = { w.leftBehind queue.reset with failed := true })
      (due : w.transport.outbound.isDue w.now = true) : Drained w false w'

theorem drained_send {w : Endpoint ρ σ} {fragment : List UInt8} {queue : FragmentQueue}
    (ready : w.transport.connection.isReady = true)
    (due : w.transport.outbound.isDue w.now = true)
    (next : w.transport.outbound.queue.next? = some (fragment, queue)) :
    Drained w (w.send fragment queue).1 (w.send fragment queue).2 := by
  have hflight : queue.inFlight = true := by
    obtain ⟨-, -, -, rfl⟩ := FragmentQueue.next?_eq_some next
    rfl
  unfold send
  dsimp only
  split
  · rename_i h
    exact .sent fragment queue ready next h rfl rfl {} rfl due
  · rename_i h
    refine .refused fragment queue ready next (eq_false_of_ne_true h) rfl rfl {} ?_ due
    show { w.leftBehind queue with queue := (queue.complete false).2, failed := true } = _
    rw [FragmentQueue.complete_false hflight]
    rfl

theorem drained_drain (w : Endpoint ρ σ) : Drained w w.drain.1 w.drain.2 := by
  rw [drain_eq]
  split
  · rename_i hmay
    rw [Bool.and_eq_true] at hmay
    cases hnext : w.transport.outbound.queue.next? with
    | some cut => exact drained_send hmay.1 hmay.2 hnext
    | none => exact .idle fun _ _ => hnext
  · rename_i hmay
    refine .idle fun hready hdue => ?_
    rw [hready, hdue] at hmay
    exact absurd rfl hmay

theorem Drained.course {w w' : Endpoint ρ σ} {sent : Bool} (h : Drained w sent w') :
    SameCourse w.transport w'.transport := by
  cases h with
  | idle => exact {}
  | sent fragment queue ready next taken air now course outbound => exact course
  | refused fragment queue ready next refused air now course outbound => exact course

omit [Radio ρ] in
def withQueue (queue : FragmentQueue) (w : Endpoint ρ σ) : Endpoint ρ σ :=
  w.update fun t => { t with outbound := { t.outbound with queue } }

/-- What a write does, with the reason; the flag is its answer. -/
inductive Answered (bytes : List UInt8) (w : Endpoint ρ σ) : Bool → Endpoint ρ σ → Prop
  | unlinked (h : w.transport.connection.isConnected = false) :
      Answered bytes w false (w.update (Transport.noteError .notConnected))
  /-- A failure is reported, and not a second time. -/
  | reports (h : w.transport.connection.isConnected = true)
      (failed : w.transport.outbound.failed = true) :
      Answered bytes w false
        (w.update fun t => { t with outbound := { t.outbound with failed := false } })
  | overflows (h : w.transport.connection.isConnected = true)
      (failed : w.transport.outbound.failed = false)
      (full : w.transport.outbound.queue.capacity <
        w.transport.outbound.queue.queued + bytes.length) :
      Answered bytes w false (w.update
        (Transport.noteError (.bufferOverflow w.transport.outbound.queue.capacity bytes.length)))
  | accepted {queue : FragmentQueue} (h : w.transport.connection.isConnected = true)
      (failed : w.transport.outbound.failed = false)
      (fits : w.transport.outbound.queue.queued + bytes.length ≤
        w.transport.outbound.queue.capacity)
      (queued : queue = { w.transport.outbound.queue with
        bytes := w.transport.outbound.queue.bytes ++ bytes }) :
      Answered bytes w true (w.withQueue queue).drain.2

theorem answered_write (bytes : List UInt8) (w : Endpoint ρ σ) :
    Answered bytes w (w.write bytes).1 (w.write bytes).2 := by
  unfold write
  dsimp only
  split
  · rename_i hdown
    exact .unlinked (by simpa using hdown)
  · rename_i hup
    have hup : w.transport.connection.isConnected = true := by simpa using hup
    split
    · rename_i hfailed
      exact .reports hup hfailed
    · rename_i hfailed
      have hfailed : w.transport.outbound.failed = false := by simpa using hfailed
      unfold FragmentQueue.enqueue
      split
      · rename_i e henqueue
        split at henqueue
        · rename_i hfull
          cases henqueue
          exact .overflows hup hfailed hfull
        · cases henqueue
      · rename_i queue henqueue
        split at henqueue
        · cases henqueue
        · rename_i hfits
          cases henqueue
          exact .accepted hup hfailed (by omega) rfl

/-- What a write does to the queue; the flag is its answer. -/
inductive Written (bytes : List UInt8) (w : Endpoint ρ σ) : Bool → Endpoint ρ σ → Prop
  | refused {w' : Endpoint ρ σ} (air : w'.air = w.air) (now : w'.now = w.now)
      (course : SameCourse w.transport w'.transport)
      (queue : w'.transport.outbound.queue = w.transport.outbound.queue)
      (notBefore : w'.transport.outbound.notBefore = w.transport.outbound.notBefore) :
      Written bytes w false w'
  | accepted {queue : FragmentQueue} (connected : w.transport.connection.isConnected = true)
      (fits : w.transport.outbound.queue.queued + bytes.length ≤
        w.transport.outbound.queue.capacity)
      (queued : queue = { w.transport.outbound.queue with
        bytes := w.transport.outbound.queue.bytes ++ bytes }) :
      Written bytes w true (w.withQueue queue).drain.2

theorem Answered.written {bytes : List UInt8} {ok : Bool} {w w' : Endpoint ρ σ}
    (h : Answered bytes w ok w') : Written bytes w ok w' := by
  cases h with
  | unlinked h => exact .refused rfl rfl {} rfl rfl
  | reports h failed => exact .refused rfl rfl {} rfl rfl
  | overflows h failed full => exact .refused rfl rfl {} rfl rfl
  | accepted h failed fits queued => exact .accepted h fits queued

theorem written_write (bytes : List UInt8) (w : Endpoint ρ σ) :
    Written bytes w (w.write bytes).1 (w.write bytes).2 := (answered_write bytes w).written

theorem Written.course {bytes : List UInt8} {ok : Bool} {w w' : Endpoint ρ σ}
    (h : Written bytes w ok w') : SameCourse w.transport w'.transport := by
  cases h with
  | refused air now course queue notBefore => exact course
  | accepted connected fits queued => exact SameCourse.trans {} (drained_drain _).course

/-! ## Ending -/

/-- What a disconnect does. -/
inductive Ended (w : Endpoint ρ σ) : Endpoint ρ σ → Prop
  | none (h : w.transport.connection = .disconnected) : Ended w (w.queueing [])
  | asked {w' : Endpoint ρ σ} (connection : Connection)
      (h : w.transport.connection.requestTeardown? = some connection)
      (air : w'.air = (w.submit .disconnect).2.air) (now : w'.now = w.now)
      (setup : SameSetup w.transport w'.transport)
      (connected : w'.transport.connection = connection)
      (outbound : w'.transport.outbound = w.transport.outbound.reset)
      (inbound : w'.transport.inbound = w.transport.inbound)
      (candidates : w'.transport.candidates = []) : Ended w w'

theorem ended_disconnect (w : Endpoint ρ σ) : Ended w w.disconnect := by
  unfold disconnect
  dsimp only
  split
  · rename_i h
    refine .none ?_
    change w.transport.connection.requestTeardown? = _ at h
    cases hc : w.transport.connection with
    | disconnected => rfl
    | connecting p t => rw [hc] at h; cases h
    | connected p r t => rw [hc] at h; cases h
  · rename_i connection h
    exact .asked connection h rfl rfl {} rfl rfl rfl rfl

theorem Ended.intake {w w' : Endpoint ρ σ} (h : Ended w w') :
    SameIntake w.transport w'.transport := by
  cases h with
  | none hc => exact {}
  | asked c hc air now setup connected outbound inbound candidates => exact ⟨setup, inbound⟩

omit [Radio ρ] in
def halted (w : Endpoint ρ σ) : Endpoint ρ σ := w.update fun t => { t with running := false }

theorem stop_of_stopped {w : Endpoint ρ σ} (h : w.transport.running = false) : w.stop = w := by
  rw [stop, halt, h]
  rfl

/-- A stop that finds the transport running stops scanning and disconnects. -/
theorem stop_of_running {w : Endpoint ρ σ} (h : w.transport.running = true) :
    ∃ u, Aside w.halted u ∧ w.stop = u.disconnect := by
  have hscan : Aside w.halted (w.halted.issue .stopScan) := .submit _ rfl
  refine ⟨_, hscan.trans (aside_forgetScan _), ?_⟩
  rw [stop, halt, if_pos h]
  rfl

theorem stop_cases (w : Endpoint ρ σ) :
    w.stop = w ∨ ∃ u, Aside w.halted u ∧ w.stop = u.disconnect := by
  cases hrun : w.transport.running with
  | true => exact .inr (stop_of_running hrun)
  | false => exact .inl (stop_of_stopped hrun)

/-- What dropping a link that is up does. -/
structure Dropped (p : Address) (w w' : Endpoint ρ σ) : Prop where
  traffic : SameTraffic w.transport w'.transport
  connection : w'.transport.connection = .connected p false true
  candidates : w'.transport.candidates = w.transport.candidates
  air : w'.air = (w.submit .disconnect).2.air
  now : w'.now = w.now

theorem dropped_dropLink {w : Endpoint ρ σ} {p : Address} {ready teardown : Bool}
    (h : w.transport.connection = .connected p ready teardown) : Dropped p w w.dropLink where
  traffic := {}
  connection := by
    show (w.transport.connection.requestTeardown?).getD w.transport.connection = _
    rw [h]
    rfl
  candidates := rfl
  air := rfl
  now := rfl

/-! ## Reports on the link -/

/-- A link to `p` that has just come up, before its services are asked for. -/
structure Opened (p : Address) (w u : Endpoint ρ σ) : Prop where
  setup : SameSetup w.transport u.transport
  connection : u.transport.connection = .connected p false false
  outbound : u.transport.outbound = { w.transport.outbound.reset with failed := false }
  inbound : u.transport.inbound = w.transport.inbound.clear
  candidates : u.transport.candidates = []
  asks : Asks (fun c => c.isScan = true) w u
  now : u.now = w.now

/-- What the report of a link that came up does. -/
inductive LinkUpDone (w : Endpoint ρ σ) : Endpoint ρ σ → Prop
  | unexpected (h : w.transport.connection.isConnecting = false) : LinkUpDone w w
  /-- The attempt was no longer wanted, so the link is given back. -/
  | cancelled {w' : Endpoint ρ σ} (p : Address) (h : w.transport.connection = .connecting p true)
      (traffic : SameTraffic w.transport w'.transport)
      (connection : w'.transport.connection = .disconnected)
      (candidates : w'.transport.candidates = w.transport.candidates)
      (air : w'.air = (w.submit .disconnect).2.air) (now : w'.now = w.now) : LinkUpDone w w'
  | kept {u : Endpoint ρ σ} (p : Address) (h : w.transport.connection = .connecting p false)
      (opened : Opened p w u) (taken : (u.submit .discover).1 = true) :
      LinkUpDone w (u.submit .discover).2
  /-- The radio will not discover the services, so the link is dropped. -/
  | dropped {u w' : Endpoint ρ σ} (p : Address) (h : w.transport.connection = .connecting p false)
      (opened : Opened p w u) (refused : (u.submit .discover).1 = false)
      (dropped : Dropped p (u.submit .discover).2 w') : LinkUpDone w w'

omit [Radio ρ] in
/-- The endpoint that has a link to `p`, which is remembered and ends fast polling. -/
def greeting [DeviceStore σ] (p : Address) (w : Endpoint ρ σ) : Endpoint ρ σ :=
  let calm := w.update fun t =>
    ({ t with connection := .connected p false false, candidates := [] }).setFast false
  let known := calm.update fun t => { t with devices := t.devices.recordConnected p }
  if w.transport.devices.newlyConnected p then known.persist else known

/-- A link to `p` has come up: no scan is under way any more and nothing is buffered or queued. -/
def opening [DeviceStore σ] (p : Address) (w : Endpoint ρ σ) : Endpoint ρ σ :=
  (w.greeting p).endScan.update fun t =>
    { t with inbound := t.inbound.clear, outbound := { t.outbound.reset with failed := false } }

/-- A link that came up and is wanted is asked for its services. -/
theorem onLinkUp_of_wanted [DeviceStore σ] {p : Address} {w : Endpoint ρ σ}
    (h : w.transport.connection = .connecting p false) :
    w.onLinkUp = if ((w.opening p).submit .discover).1 then ((w.opening p).submit .discover).2
      else ((w.opening p).submit .discover).2.dropLink := by
  unfold onLinkUp
  rw [h]
  rfl

theorem opened_opening [DeviceStore σ] (p : Address) (w : Endpoint ρ σ) :
    Opened p w (w.opening p) := by
  let calm := w.update fun t =>
    ({ t with connection := .connected p false false, candidates := [] }).setFast false
  have hgreeting : Aside calm (w.greeting p) := by
    let known := calm.update fun t => { t with devices := t.devices.recordConnected p }
    have hknown : Aside calm known := .update _ {}
    change Aside calm (if _ then known.persist else known)
    split
    · exact hknown.trans (aside_persist known)
    · exact hknown
  have h : Aside calm (w.greeting p).endScan := hgreeting.trans (aside_endScan _)
  refine ⟨?_, h.link.connection, ?_, ?_, h.link.candidates, ?_, h.now⟩
  · exact (SameSetup.trans {} h.link.toSameSetup).trans {}
  · exact congrArg (fun o : Outbound => { o.reset with failed := false }) h.link.outbound
  · exact congrArg Inbound.clear h.link.inbound
  · exact ((Asks.of_air rfl).trans h.asks).update _

theorem linkUpDone_onLinkUp [DeviceStore σ] (w : Endpoint ρ σ) : LinkUpDone w w.onLinkUp := by
  cases hc : w.transport.connection with
  | disconnected =>
    rw [onLinkUp, hc]
    exact .unexpected (by rw [hc]; rfl)
  | connected p r t =>
    rw [onLinkUp, hc]
    exact .unexpected (by rw [hc]; rfl)
  | connecting p teardown =>
    cases teardown with
    | true =>
      rw [onLinkUp, hc]
      exact .cancelled p hc {} rfl rfl rfl rfl
    | false =>
      have hu := opened_opening p w
      rw [onLinkUp_of_wanted hc]
      split
      · rename_i h
        exact .kept p hc hu h
      · rename_i h
        exact .dropped p hc hu (eq_false_of_ne_true h) (dropped_dropLink hu.connection)

omit [Radio ρ] in
/-- A transport without its link: nothing is queued, in flight or buffered. -/
def gone (w : Endpoint ρ σ) : Endpoint ρ σ :=
  w.update fun t =>
    { t with connection := .disconnected, outbound := t.outbound.reset, inbound := t.inbound.clear }

/-- What the report of a link that is down does. -/
inductive LinkDownDone (w : Endpoint ρ σ) : Endpoint ρ σ → Prop
  | ignored (h : w.transport.connection = .disconnected) : LinkDownDone w w
  | failed (p : Address) (h : w.transport.connection = .connecting p false) :
      LinkDownDone w (tryCandidates w.transport.candidates
        (w.gone.update (Transport.noteError (.connectFailed p))))
  | cancelled (p : Address) (h : w.transport.connection = .connecting p true) :
      LinkDownDone w (w.gone.queueing [])
  | lost (p : Address) (ready : Bool) (h : w.transport.connection = .connected p ready false) :
      LinkDownDone w (w.gone.update (Transport.setFast true))
  | closed (p : Address) (ready : Bool) (h : w.transport.connection = .connected p ready true) :
      LinkDownDone w w.gone

theorem linkDownDone_onLinkDown [DeviceStore σ] (w : Endpoint ρ σ) :
    LinkDownDone w w.onLinkDown := by
  unfold onLinkDown
  cases hc : w.transport.connection with
  | disconnected => exact .ignored hc
  | connecting p teardown =>
    cases teardown with
    | true => exact .cancelled p hc
    | false => exact .failed p hc
  | connected p ready teardown =>
    cases teardown with
    | true => exact .closed p ready hc
    | false => exact .lost p ready hc

/-! ## Reports on services and writes -/

omit [Radio ρ] in
def readied (w : Endpoint ρ σ) : Endpoint ρ σ :=
  w.update fun t => { t with connection := t.connection.markReady }

/-- What a report on the discovery of services does. -/
inductive DiscoveredDone (success : Bool) (w : Endpoint ρ σ) : Endpoint ρ σ → Prop
  | ignored (h : w.transport.connection.isConnected = true →
      w.transport.connection.teardownRequested = true) : DiscoveredDone success w w
  | ready (p : Address) (r : Bool) (h : w.transport.connection = .connected p r false)
      (taken : (w.submit (.enableNotify .notify)).1 = true) (hs : success = true) :
      DiscoveredDone success w (w.submit (.enableNotify .notify)).2.readied.drain.2
  | refused {w' : Endpoint ρ σ} (p : Address) (r : Bool)
      (h : w.transport.connection = .connected p r false)
      (refused : (w.submit (.enableNotify .notify)).1 = false)
      (dropped : Dropped p (w.submit (.enableNotify .notify)).2 w') (hs : success = true) :
      DiscoveredDone success w w'
  | failed {w' : Endpoint ρ σ} (p : Address) (r : Bool)
      (h : w.transport.connection = .connected p r false) (dropped : Dropped p w w') :
      DiscoveredDone success w w'

theorem discoveredDone_onServicesDiscovered (success : Bool) (w : Endpoint ρ σ) :
    DiscoveredDone success w (w.onServicesDiscovered success) := by
  unfold onServicesDiscovered
  cases hc : w.transport.connection with
  | disconnected => exact .ignored (by rw [hc]; intro h; cases h)
  | connecting p teardown => exact .ignored (by rw [hc]; intro h; cases h)
  | connected p r teardown =>
    cases teardown with
    | true => exact .ignored (by rw [hc]; intro _; rfl)
    | false =>
      cases success with
      | false => exact .failed p r hc (dropped_dropLink hc)
      | true =>
        change DiscoveredDone true w (if (w.submit (.enableNotify .notify)).1 then
          (w.submit (.enableNotify .notify)).2.readied.drain.2
          else (w.submit (.enableNotify .notify)).2.dropLink)
        split
        · rename_i h
          exact .ready p r hc h rfl
        · rename_i h
          exact .refused p r hc (eq_false_of_ne_true h) (dropped_dropLink hc) rfl

theorem DiscoveredDone.intake {success : Bool} {w w' : Endpoint ρ σ}
    (h : DiscoveredDone success w w') : SameIntake w.transport w'.transport := by
  cases h with
  | ignored => exact {}
  | ready p r hc taken => exact SameIntake.trans {} (drained_drain _).course.intake
  | refused p r hc refused dropped => exact SameIntake.trans {} dropped.traffic.intake
  | failed p r hc dropped => exact dropped.traffic.intake

omit [Radio ρ] in
def acknowledged (w : Endpoint ρ σ) : Endpoint ρ σ :=
  w.update fun t =>
    { t with
      outbound := { t.outbound with queue := { t.outbound.queue with inFlight := false } }
      tally := { t.tally with acknowledged := t.tally.acknowledged + 1 } }

/-- What a report on a write does. -/
inductive CompletedDone (success : Bool) (w : Endpoint ρ σ) : Endpoint ρ σ → Prop
  | unexpected (h : w.transport.outbound.queue.inFlight = false) : CompletedDone success w w
  | acknowledged (h : w.transport.outbound.queue.inFlight = true) (hs : success = true) :
      CompletedDone success w w.acknowledged.drain.2
  | failed {w' : Endpoint ρ σ} (h : w.transport.outbound.queue.inFlight = true)
      (hs : success = false) (air : w'.air = w.air) (now : w'.now = w.now)
      (course : SameCourse w.transport w'.transport)
      (outbound : w'.transport.outbound = { w.transport.outbound.reset with failed := true }) :
      CompletedDone success w w'

theorem drain_of_empty {w : Endpoint ρ σ} (h : w.transport.outbound.queue.bytes = []) :
    w.drain.2 = w := by
  have hnext : w.transport.outbound.queue.next? = none := by
    rw [FragmentQueue.next?, if_pos]
    rw [h]
    exact Bool.or_true _
  rw [drain_eq, hnext]
  split <;> rfl

theorem onWriteComplete_of_idle {success : Bool} {w : Endpoint ρ σ}
    (h : w.transport.outbound.queue.inFlight = false) : w.onWriteComplete success = w := by
  rw [onWriteComplete, FragmentQueue.complete, h]
  rfl

theorem completedDone_onWriteComplete (success : Bool) (w : Endpoint ρ σ) :
    CompletedDone success w (w.onWriteComplete success) := by
  cases hflight : w.transport.outbound.queue.inFlight with
  | false =>
    rw [onWriteComplete_of_idle hflight]
    exact .unexpected hflight
  | true =>
    cases success with
    | false =>
      rw [onWriteComplete, FragmentQueue.complete, hflight]
      exact .failed hflight rfl rfl rfl {} rfl
    | true =>
      have hw : w.onWriteComplete true = w.acknowledged.drain.2 := by
        rw [onWriteComplete, FragmentQueue.complete, hflight]
        change (if w.transport.outbound.queue.queued > 0 then w.acknowledged.drain.2
          else w.acknowledged) = _
        split
        · rfl
        · rename_i hempty
          refine (drain_of_empty (w := w.acknowledged) ?_).symm
          exact List.eq_nil_of_length_eq_zero (Nat.eq_zero_of_not_pos hempty)
      rw [hw]
      exact .acknowledged hflight rfl

theorem CompletedDone.course {success : Bool} {w w' : Endpoint ρ σ}
    (h : CompletedDone success w w') : SameCourse w.transport w'.transport := by
  cases h with
  | unexpected => exact {}
  | acknowledged hflight hs => exact SameCourse.trans {} (drained_drain _).course
  | failed hflight hs air now course outbound => exact course

end Endpoint

end VehicleLink
