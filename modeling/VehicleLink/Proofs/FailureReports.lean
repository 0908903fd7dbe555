import VehicleLink.Proofs.OutboundStream
import VehicleLink.Proofs.Turns

/-!
# Failures that writes report

A write is turned away once after a fragment failed, and for no other reason than that, a link that
is down or a queue without room. A failure is `Unreported` from the turn in which a fragment fails
until the next write on the same link; one turn changes this as `hasFailed_after` says, and a link
begins without any (`hasFailed_sinceUp`).
-/

namespace VehicleLink

namespace Endpoint

variable {ρ σ : Type}

def hasFailed (w : Endpoint ρ σ) : Bool := w.transport.outbound.failed

variable [Radio ρ] {w w' : Endpoint (Logged ρ) σ}

/-! ## The operations -/

/-- An operation after which a failure is unreported if one was before or a fragment was turned
away. -/
def Marks (w w' : Endpoint (Logged ρ) σ) : Prop :=
  ∃ cs, w'.radio.log = w.radio.log ++ cs ∧
    (w'.hasFailed = true ↔ w.hasFailed = true ∨ ∃ fragment, (fragment, false) ∈ writesOf cs)

theorem marks_of_quiet (h : Quiet w w') (hf : w'.hasFailed = w.hasFailed) : Marks w w' := by
  obtain ⟨cs, hlog, hcs⟩ := h.log
  exact ⟨cs, hlog, by simp [writesOf_eq_nil hcs, hf]⟩

omit [Radio ρ] in
theorem Marks.trans {u : Endpoint (Logged ρ) σ} (h₁ : Marks w u) (h₂ : Marks u w') :
    Marks w w' := by
  obtain ⟨cs, hlog, hcs⟩ := h₁
  obtain ⟨ds, hlog', hds⟩ := h₂
  refine ⟨cs ++ ds, by rw [hlog', hlog, List.append_assoc], ?_⟩
  simp [writesOf_append, hds, hcs, or_assoc, exists_or]

theorem hasFailed_of {ρ : Type} {w : Endpoint ρ σ} {o : Outbound} (h : w.transport.outbound = o) :
    w.hasFailed = o.failed := congrArg Outbound.failed h

theorem marks_drained {sent : Bool} (h : Drained w sent w') : Marks w w' := by
  cases h with
  | idle => exact ⟨[], (List.append_nil _).symm, by simp [writesOf]⟩
  | sent fragment queue ready next taken air now course outbound =>
    have hf : w'.hasFailed = w.hasFailed := (hasFailed_of outbound).trans rfl
    exact ⟨_, log_of_air air, by simp [writesOf, taken, hf]⟩
  | refused fragment queue ready next refused air now course outbound =>
    have hf : w'.hasFailed = true := hasFailed_of outbound
    exact ⟨_, log_of_air air, by simp [writesOf, refused, hf]⟩

theorem marks_seek [DeviceStore σ] {target : Option Address} (h : Seek target w w') :
    Marks w w' := marks_of_quiet h.quiet (hasFailed_of h.traffic.outbound)

theorem marks_ended (h : Ended w w') : Marks w w' := by
  cases h with
  | none hc => exact marks_of_quiet (.of_air rfl) rfl
  | asked c hc air now setup connected outbound inbound candidates =>
    exact marks_of_quiet (.of_submit rfl air) ((hasFailed_of outbound).trans rfl)

theorem marks_aside (h : Aside w w') : Marks w w' :=
  marks_of_quiet h.quiet (hasFailed_of h.link.outbound)

theorem marks_dropped {p : Address} (h : Dropped p w w') : Marks w w' :=
  marks_of_quiet (.of_submit rfl h.air) (hasFailed_of h.traffic.outbound)

/-- A link begins without a failure. -/
theorem hasFailed_opened {p : Address} (hc : w.transport.connection = .connecting p false)
    (h : LinkUpDone w w') : w'.hasFailed = false := by
  cases h with
  | unexpected h => simp [hc, Connection.isConnecting] at h
  | cancelled p h => simp [hc] at h
  | @kept u p h opened taken =>
    have hf : u.hasFailed = false := hasFailed_of opened.outbound
    exact hf
  | dropped p h opened refused dropped =>
    exact (hasFailed_of dropped.traffic.outbound).trans (hasFailed_of opened.outbound)

theorem marks_linkUp (hc : ∀ p, w.transport.connection ≠ .connecting p false)
    (h : LinkUpDone w w') : Marks w w' := by
  have hquiet := h.quiet
  cases h with
  | unexpected => exact marks_of_quiet hquiet rfl
  | cancelled p h traffic => exact marks_of_quiet hquiet (hasFailed_of traffic.outbound)
  | kept p h => exact absurd h (hc p)
  | dropped p h => exact absurd h (hc p)

theorem marks_linkDown (h : LinkDownDone w w') : Marks w w' := by
  cases h with
  | failed p hc =>
    let v := w.gone.update (Transport.noteError (.connectFailed p))
    have ha : Attempted w.transport.candidates v _ := attempted_tryCandidates _ rfl
    have hgone : Marks w v := marks_of_quiet (.of_air rfl) rfl
    exact hgone.trans (marks_of_quiet ha.quiet (hasFailed_of ha.traffic.outbound))
  | _ => exact marks_of_quiet (.of_air rfl) rfl

theorem marks_discovered {success : Bool} (h : DiscoveredDone success w w') : Marks w w' := by
  have hquiet : Quiet w (w.submit (.enableNotify .notify)).2 := .submit _ rfl
  cases h with
  | ignored => exact marks_aside (.refl w)
  | ready p r hc taken =>
    have hready : Marks w (w.submit (.enableNotify .notify)).2.readied :=
      marks_of_quiet (hquiet.update _) rfl
    exact hready.trans (marks_drained (drained_drain _))
  | refused p r hc refused dropped =>
    exact (marks_of_quiet hquiet rfl).trans (marks_dropped dropped)
  | failed p r hc dropped => exact marks_dropped dropped

theorem marks_completed {success : Bool} (h : CompletedDone success w w')
    (hs : success = true ∨ w.transport.outbound.queue.inFlight = false) : Marks w w' := by
  cases h with
  | unexpected => exact marks_aside (.refl w)
  | acknowledged hflight hs =>
    have hack : Marks w w.acknowledged := marks_of_quiet (.of_air rfl) rfl
    exact hack.trans (marks_drained (drained_drain _))
  | failed hflight hno => simp [hflight, hno] at hs

theorem marks_unlinked {bytes : List UInt8} {ok : Bool} (hup : w.isUp = false)
    (h : Answered bytes w ok w') : Marks w w' := by
  have hno (h : w.transport.connection.isConnected = true) : Marks w w' := by
    simp [isUp, h] at hup
  cases h with
  | unlinked => exact marks_of_quiet (.of_air rfl) rfl
  | reports h => exact hno h
  | overflows h => exact hno h
  | accepted h => exact hno h

/-- A write on a link leaves no failure but that of the fragment that it sent. -/
theorem marks_linked {bytes : List UInt8} {ok : Bool} (hup : w.isUp = true)
    (h : Answered bytes w ok w') :
    ∃ cs, w'.radio.log = w.radio.log ++ cs ∧
      (w'.hasFailed = true ↔ ∃ fragment, (fragment, false) ∈ writesOf cs) := by
  cases h with
  | unlinked h => simp [isUp, h] at hup
  | reports h failed =>
    exact ⟨[], (List.append_nil _).symm, by simp [writesOf, hasFailed, update]⟩
  | overflows h failed full =>
    refine ⟨[], (List.append_nil _).symm, ?_⟩
    simp [writesOf, hasFailed, update, Transport.noteError, failed]
  | @accepted queue h failed fits queued =>
    obtain ⟨cs, hlog, hcs⟩ := marks_drained (drained_drain (w.withQueue queue))
    refine ⟨cs, hlog, ?_⟩
    have hbefore : (w.withQueue queue).hasFailed = false := failed
    simpa [hbefore] using hcs

/-- A fragment that is reported as lost leaves a failure to be reported. -/
theorem hasFailed_lost (hflight : w.transport.outbound.queue.inFlight = true)
    (h : CompletedDone false w w') : w'.hasFailed = true := by
  cases h with
  | unexpected h => simp [hflight] at h
  | acknowledged h hs => cases hs
  | failed h hs air now course outbound => exact hasFailed_of outbound

variable [DeviceStore σ]

theorem marks_act {a : Action} (ha : a.byConsumer = true) (hwrite : ∀ bytes, a ≠ .write bytes)
    (w : Endpoint (Logged ρ) σ) : Marks w (w.act a) := by
  have h := acted_act ha w
  generalize w.act a = w' at h ⊢
  cases h with
  | stops hu h =>
    have hhalted : Marks w w.halted := marks_of_quiet (.of_air rfl) rfl
    exact (hhalted.trans (marks_aside hu)).trans (marks_ended h)
  | seeks running h => exact marks_seek h
  | ends h => exact marks_ended h
  | aside h => exact marks_aside h
  | @writes bytes => exact absurd rfl (hwrite bytes)
  | drains h => exact marks_drained h
  | _ => exact marks_of_quiet (.of_air rfl) rfl

theorem marks_handle (e : Event) (w : Endpoint (Logged ρ) σ)
    (hup : e = .linkUp → ∀ p, w.transport.connection ≠ .connecting p false)
    (hlost : e = .writeComplete false → w.transport.outbound.queue.inFlight = false) :
    Marks w (w.handle e) := by
  cases e with
  | scanResult d => exact marks_aside (aside_onScanResult d w)
  | scanComplete => exact marks_aside (aside_onScanComplete w)
  | linkUp => exact marks_linkUp (hup rfl) (linkUpDone_onLinkUp w)
  | linkDown => exact marks_linkDown (linkDownDone_onLinkDown w)
  | servicesDiscovered success => exact marks_discovered (discoveredDone_onServicesDiscovered _ w)
  | writeComplete success =>
    refine marks_completed (completedDone_onWriteComplete success w) ?_
    cases success with
    | true => exact .inl rfl
    | false => exact .inr (hlost rfl)
  | received bytes =>
    obtain ⟨inbound, heq⟩ := onReceived_eq bytes w
    rw [Endpoint.handle, heq]
    exact marks_of_quiet (.of_air rfl) rfl

end Endpoint

/-! ## Turns -/

namespace Turn

open Endpoint

variable {ρ σ : Type} [Radio ρ] [DeviceStore σ] {t : Turn ρ σ}

/-- A fragment fails in the turn: it is reported as lost, or the radio turns it away. -/
inductive Fails (t : Turn ρ σ) : Prop
  | lost (h : t.event? = some (.writeComplete false))
      (flight : t.before.transport.outbound.queue.inFlight = true)
  | refused (fragment : List UInt8) (h : (fragment, false) ∈ t.writes)

omit [Radio ρ] [DeviceStore σ] in
/-- Whether the turn looks for an unreported failure: a write on a link does. -/
def checks (t : Turn ρ σ) : Bool :=
  match t.step with
  | .act (.write _) => t.before.isUp
  | _ => false

omit [Radio ρ] [DeviceStore σ] in
theorem checks_of_no_write (h : ∀ bytes, t.step ≠ .act (.write bytes)) : t.checks = false := by
  unfold checks
  split
  · rename_i bytes hw
    exact absurd hw (h bytes)
  · rfl

theorem hasFailed_of_marks (h : Marks t.before t.after)
    (hlost : t.event? = some (.writeComplete false) →
      t.before.transport.outbound.queue.inFlight = false) :
    t.after.hasFailed = true ↔ t.Fails ∨ t.before.hasFailed = true := by
  obtain ⟨cs, hlog, hcs⟩ := h
  rw [hcs, ← calls_of_log hlog]
  constructor
  · rintro (hf | ⟨fragment, hmem⟩)
    · exact .inr hf
    · exact .inl (.refused fragment hmem)
  · rintro (hf | hf)
    · cases hf with
      | lost h hflight => simp [hlost h] at hflight
      | refused fragment hmem => exact .inr ⟨fragment, hmem⟩
    · exact .inl hf

theorem not_fails_of_logs (h : Logs (fun c => c.isWrite = false) t.before t.after)
    (he : t.event? ≠ some (.writeComplete false)) : ¬ t.Fails := by
  obtain ⟨cs, hlog, hcs⟩ := h
  intro hf
  cases hf with
  | lost h => exact he h
  | refused fragment hmem =>
    rw [writes, calls_of_log hlog, writesOf_eq_nil hcs] at hmem
    cases hmem

/-- A write on a link takes an unreported failure away, and may leave one of its own. -/
theorem hasFailed_after_write {bytes : List UInt8} (hstep : t.step = .act (.write bytes)) :
    t.after.hasFailed = true ↔ t.Fails ∨ t.before.hasFailed = true ∧ t.checks = false := by
  have hevent : t.event? = none := event?_of_consumer rfl hstep
  have hchecks : t.checks = t.before.isUp := by rw [checks, hstep]
  have h := answered_write bytes t.before
  rw [show (t.before.write bytes).2 = t.after from (after_of_step hstep).symm] at h
  cases hup : t.before.isUp with
  | false => simp [hasFailed_of_marks (marks_unlinked hup h), hevent, hchecks, hup]
  | true =>
    obtain ⟨cs, hlog, hcs⟩ := marks_linked hup h
    rw [hcs, ← calls_of_log hlog, hchecks, hup]
    constructor
    · rintro ⟨fragment, hmem⟩
      exact .inl (.refused fragment hmem)
    · rintro (hf | ⟨-, h⟩)
      · cases hf with
        | lost h => simp [hevent] at h
        | refused fragment hmem => exact ⟨fragment, hmem⟩
      · cases h

theorem establishes_of_no_event (h : t.event? = none) : t.establishes = false := by
  rw [← Bool.not_eq_true, establishes_iff, h]
  simp

/-- A turn that neither looks for failures nor establishes a link. -/
theorem hasFailed_after_plain (h : Marks t.before t.after) (hest : t.establishes = false)
    (hchecks : t.checks = false)
    (hlost : t.event? = some (.writeComplete false) →
      t.before.transport.outbound.queue.inFlight = false) :
    t.after.hasFailed = true ↔
      t.establishes = false ∧ (t.Fails ∨ t.before.hasFailed = true ∧ t.checks = false) := by
  rw [hasFailed_of_marks h hlost]
  simp [hest, hchecks]

theorem hasFailed_after_event {e : Event} (hevent : t.event? = some e) :
    t.after.hasFailed = true ↔
      t.establishes = false ∧ (t.Fails ∨ t.before.hasFailed = true ∧ t.checks = false) := by
  obtain ⟨w, transport, radio, after, idle⟩ := handles_of_event hevent
  by_cases hest : t.establishes = true
  · obtain ⟨hup, p, hp⟩ := establishes_iff.1 hest
    obtain rfl : e = .linkUp := by simpa [hevent] using hup
    have hf : t.after.hasFailed = false := by
      rw [after]
      exact hasFailed_opened (transport ▸ hp) (linkUpDone_onLinkUp w)
    simp [hf, hest]
  by_cases hlost : e = .writeComplete false ∧ w.transport.outbound.queue.inFlight = true
  · obtain ⟨rfl, hflight⟩ := hlost
    have hf : t.after.hasFailed = true := by
      rw [after]
      exact hasFailed_lost hflight (completedDone_onWriteComplete false w)
    have hfails : t.Fails := .lost hevent (transport ▸ hflight)
    simp [hf, hfails, hest]
  -- no link comes up and no fragment is lost
  have hidle (he : e = .writeComplete false) : w.transport.outbound.queue.inFlight = false :=
    eq_false_of_ne_true fun hflight => hlost ⟨he, hflight⟩
  obtain ⟨cs, hlog, hcs⟩ : Marks w (w.handle e) := by
    refine marks_handle e w (fun he p hp => hest ?_) hidle
    exact establishes_iff.2 ⟨by rw [hevent, he], p, transport ▸ hp⟩
  refine hasFailed_after_plain ⟨cs, by rw [after, hlog, radio], ?_⟩ (eq_false_of_ne_true hest)
    (checks_of_no_write fun bytes hw => by cases idle _ hw) fun he => ?_
  · rw [after, hcs, Endpoint.hasFailed, transport]
    rfl
  · rw [← transport]
    exact hidle (by simpa [hevent] using he)

/-- A failure is unreported after a turn if a fragment failed in it, or if one was unreported before
and the turn looks for none; a link is established without any. -/
theorem hasFailed_after (t : Turn ρ σ) :
    t.after.hasFailed = true ↔
      t.establishes = false ∧ (t.Fails ∨ t.before.hasFailed = true ∧ t.checks = false) := by
  cases t.kind with
  | handles e w idle event => exact hasFailed_after_event event
  | still idle event transport log =>
    refine hasFailed_after_plain ⟨[], by simp [log], ?_⟩ (establishes_of_no_event event) ?_
      (by simp [event])
    · simp [writesOf, Endpoint.hasFailed, transport]
    · exact checks_of_no_write fun bytes hw => by cases idle _ hw
  | acts a ha hstep =>
    have hevent := event?_of_consumer ha hstep
    have hest := establishes_of_no_event hevent
    by_cases hwrite : ∃ bytes, a = .write bytes
    · obtain ⟨bytes, rfl⟩ := hwrite
      simp [hasFailed_after_write hstep, hest]
    · refine hasFailed_after_plain ?_ hest (checks_of_no_write fun bytes hb => ?_) (by simp [hevent])
      · rw [after_of_step hstep]
        exact marks_act ha (fun bytes hb => hwrite ⟨bytes, hb⟩) _
      · rw [hstep] at hb
        exact hwrite ⟨bytes, by injection hb⟩

theorem not_fails_of_establishes (h : t.establishes = true) : ¬ t.Fails := by
  obtain ⟨hevent, -⟩ := establishes_iff.1 h
  obtain ⟨w, -, radio, after, -⟩ := handles_of_event hevent
  obtain ⟨cs, hlog, hcs⟩ := (linkUpDone_onLinkUp w).quiet.log
  refine not_fails_of_logs ⟨cs, ?_, hcs⟩ (by simp [hevent])
  rw [after, ← radio]
  exact hlog

/-- What is lost on a link that stays up, other than by a consumer who ends it, is lost by a
failure. -/
theorem fails_of_lost {s : LinkSettings} (hs : Sound s t.before.transport)
    (hup : t.after.isUp = true) (hdisconnect : t.step ≠ .act .disconnect)
    (hstop : t.step ≠ .act .stop) (hlost : t.lost ≠ []) : t.Fails := by
  cases (offered_splits hs).2 hlost with
  | refused fragment hmem => exact .refused fragment hmem
  | cut hcut =>
    cases hcut with
    | disconnect h => exact absurd h hdisconnect
    | stop h => exact absurd h hstop
    | down h h' => simp [isUp, h'] at hup
    | failed hevent =>
      obtain ⟨w, transport, radio, after, idle⟩ := handles_of_event hevent
      have hflight : w.transport.outbound.queue.inFlight = true := by
        -- a report that comes when nothing is in flight loses nothing
        refine eq_true_of_ne_false fun hidle => hlost ?_
        have hsame : t.after.outgoing = t.before.outgoing := by
          rw [after, outgoing, outgoing, ← transport, handle, onWriteComplete_of_idle hidle]
        have haccepted : t.accepted = [] :=
          accepted_of_no_write fun bytes hw => by cases idle _ hw
        simp [lost, offered, haccepted, hsame]
      exact .lost hevent (transport ▸ hflight)

/-- A fragment failed in one of the turns, and no write has looked for it since. -/
def Unreported (ts : List (Turn ρ σ)) : Prop :=
  Since (fun _ t => t.Fails) (fun t => t.checks = false) ts

end Turn

namespace Endpoint

variable {ρ σ : Type} [Radio ρ] [DeviceStore σ] {s : LinkSettings} {w : Endpoint (Logged ρ) σ}

open Turn

/-! ## Runs -/

theorem hasFailed_sinceUp (h : w.hasFailed = false) (steps : List (Step ρ σ)) :
    (w.runLogged steps).hasFailed = true ↔ Unreported (sinceUp (turns steps w)) := by
  induction steps using List.reverseRecOn with
  | nil => simp [runLogged, h, turns, sinceUp, Unreported, not_since_nil]
  | append_singleton steps st ih =>
    obtain ⟨t, hturns, -, hbefore, hafter⟩ := exists_last_turn steps st w
    rw [← hafter, hturns, sinceUp_concat, hasFailed_after, hbefore, ih]
    split
    · rename_i hest
      have hnone : ¬ Unreported [t] := by
        rw [← List.nil_append [t], Unreported, since_concat]
        simp [not_fails_of_establishes hest, not_since_nil]
      simp [hest, hnone]
    · rename_i hest
      simp [hest, Unreported, since_concat]

/-- What a write does not touch when it turns its bytes away. -/
structure Untouched {ρ σ : Type} (w w' : Endpoint ρ σ) : Prop where
  queue : w'.transport.outbound.queue = w.transport.outbound.queue
  inbound : w'.transport.inbound = w.transport.inbound
  connection : w'.transport.connection = w.transport.connection
  candidates : w'.transport.candidates = w.transport.candidates
  devices : w'.transport.devices = w.transport.devices
  radio : w'.radio = w.radio
  store : w'.store = w.store
  inbox : w'.inbox = w.inbox

omit [DeviceStore σ] in
theorem untouched_write {bytes : List UInt8} (h : (w.write bytes).1 = false) :
    Untouched w (w.write bytes).2 := by
  have hw := answered_write bytes w
  rw [h] at hw
  generalize (w.write bytes).2 = w' at hw ⊢
  cases hw <;> exact ⟨rfl, rfl, rfl, rfl, rfl, rfl, rfl, rfl⟩

omit [DeviceStore σ] in
theorem write_iff (bytes : List UInt8) (w : Endpoint (Logged ρ) σ) :
    (w.write bytes).1 = true ↔ w.isUp = true ∧ w.hasFailed = false ∧
      w.outgoing.length + bytes.length ≤ w.transport.outbound.queue.capacity := by
  have hw := answered_write bytes w
  generalize (w.write bytes).1 = ok, (w.write bytes).2 = w' at hw ⊢
  cases hw with
  | unlinked h => simp [isUp, h]
  | reports h failed => simp [hasFailed, failed]
  | overflows h failed full =>
    change _ < w.outgoing.length + _ at full
    simp only [false_iff, Bool.false_eq_true]
    omega
  | accepted h failed fits queued => exact ⟨fun _ => ⟨h, failed, fits⟩, fun _ => rfl⟩

/-- A failure is reported once: when a write has looked for failures and none came after, there is
nothing to report. -/
theorem not_unreported_of_checks {earlier later : List (Turn ρ σ)} {t : Turn ρ σ}
    (hchecks : t.checks = true) (hnone : ∀ u ∈ t :: later, ¬ u.Fails) :
    ¬ Unreported (earlier ++ t :: later) := by
  induction later using List.reverseRecOn with
  | nil => simp [Unreported, since_concat, hchecks, hnone t]
  | append_singleton later u ih =>
    rw [← List.cons_append, ← List.append_assoc, Unreported, since_concat]
    rintro (hfails | ⟨hunreported, -⟩)
    · exact hnone u (by simp) hfails
    · exact ih (fun v hv => hnone v (List.mem_append_left [u] hv)) hunreported

/-- A write at any moment of any run of a transport that was created. It is accepted exactly if the
link is up, no failure of a fragment on this link is unreported and the bytes fit; otherwise it
changes nothing but the report. On a link that stays up, bytes are lost only by a failure or by a
consumer who ends the link. A failure makes the next write on its link fail, and no other: the
writes behind that one, and those on a link without failures, depend on the room alone. -/
theorem write_reports_failures {target : Option String} {radio : Logged ρ} {store : σ}
    (hw : create s target radio store = .ok w) (steps : List (Step ρ σ)) (bytes : List UInt8) :
    let link := sinceUp (turns steps w)
    let u := w.runLogged steps
    let fits := u.outgoing.length + bytes.length ≤ s.outboundCapacity
    ((u.write bytes).1 = true ↔ u.isUp = true ∧ ¬ Unreported link ∧ fits) ∧
    ((u.write bytes).1 = false → Untouched u (u.write bytes).2) ∧
    (∀ t ∈ link, t.after.isUp = true → t.step ≠ .act .disconnect → t.step ≠ .act .stop →
      t.lost ≠ [] → t.Fails) ∧
    (∀ earlier t later, link = earlier ++ t :: later → t.Fails → (∀ v ∈ later, v.checks = false) →
      (u.write bytes).1 = false) ∧
    (∀ earlier t later, link = earlier ++ t :: later → t.checks = true →
      (∀ v ∈ t :: later, ¬ v.Fails) → ((u.write bytes).1 = true ↔ u.isUp = true ∧ fits)) ∧
    ((∀ t ∈ link, ¬ t.Fails) → ((u.write bytes).1 = true ↔ u.isUp = true ∧ fits)) := by
  intro link u fits
  have hsound : Sound s w.transport := sound_create hw
  have hfresh : w.hasFailed = false := by
    obtain ⟨a, devices, -, rfl⟩ := create_eq hw
    rfl
  have hfailed : u.hasFailed = true ↔ Unreported link := hasFailed_sinceUp hfresh steps
  have hcapacity : u.transport.outbound.queue.capacity = s.outboundCapacity :=
    (sound_runLogged hsound steps).capacity
  have haccepts : (u.write bytes).1 = true ↔ u.isUp = true ∧ ¬ Unreported link ∧ fits := by
    rw [write_iff, ← hfailed, hcapacity, Bool.not_eq_true]
  have hroom (hnone : ¬ Unreported link) : (u.write bytes).1 = true ↔ u.isUp = true ∧ fits := by
    simp [haccepts, hnone]
  refine ⟨haccepts, untouched_write, ?_, ?_, ?_, ?_⟩
  · intro t ht hup hdisconnect hstop hlost
    have ht : t ∈ turns steps w := (sinceUp_suffix _).mem ht
    exact fails_of_lost (sound_of_mem_turns hsound ht) hup hdisconnect hstop hlost
  · intro earlier t later hlink hfails hlater
    have hunreported : Unreported link := ⟨earlier, t, later, hlink, hfails, hlater⟩
    refine eq_false_of_ne_true fun h => ?_
    exact (haccepts.1 h).2.1 hunreported
  · intro earlier t later hlink hchecks hnone
    exact hroom (hlink ▸ not_unreported_of_checks hchecks hnone)
  · intro hnone
    refine hroom ?_
    rintro ⟨earlier, t, later, hlink, hfails, -⟩
    exact hnone t (by simp [hlink]) hfails

/-- A fragment fails while a byte is queued behind it: the next write is turned away, the one after
that is not. -/
theorem write_turned_away_once :
    ∃ (w : Endpoint (Logged Radio.Simulated) Store.Memory)
      (steps : List (Step Radio.Simulated Store.Memory)),
      create { maxFragment := 2, writeDelay := 0 } none
        ⟨{ behaviour := { writeSuccess := false } }, []⟩ {} = .ok w ∧
      (sinceUp (turns steps w)).flatMap lost = [3] ∧
      (w.runLogged steps).isUp = true ∧
      ((w.runLogged steps).write [4]).1 = false ∧
      Unreported (sinceUp (turns steps w)) ∧
      Untouched (w.runLogged steps) ((w.runLogged steps).write [4]).2 ∧
      ((w.runLogged (steps ++ [.act (.write [4])])).write [5]).1 = true := by
  let settings : LinkSettings := { maxFragment := 2, writeDelay := 0 }
  let radio : Logged Radio.Simulated := ⟨{ behaviour := { writeSuccess := false } }, []⟩
  let steps : List (Step Radio.Simulated Store.Memory) :=
    [.act .start, .act (.connect (some ⟨1, 2, 3, 4, 5, 6⟩)), .act .next, .act .next,
      .act (.write [1, 2, 3]), .act .next]
  have hw : create settings none radio ({} : Store.Memory) = .ok _ := rfl
  obtain ⟨haccepts, huntouched, -⟩ := write_reports_failures hw steps [4]
  refine ⟨_, steps, hw, by decide, by decide, by decide, ?_, huntouched (by decide), by decide⟩
  -- the link is up and there is room, so only a failure can be the reason
  by_contra hnone
  have hanswer := haccepts.2 ⟨by decide, hnone, by decide⟩
  exact absurd hanswer (by decide)

end Endpoint

end VehicleLink
