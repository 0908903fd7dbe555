import VehicleLink.Proofs.Fallback
import VehicleLink.Proofs.InboundStream
import VehicleLink.Proofs.History

/-!
# The counters

What a transport counts agrees with the calls that it made. One operation books the fragments that
it hands to the radio (`Books`): a fragment that the radio takes is submitted and in flight, one
that it turns away has failed, and one in flight is acknowledged, fails or is forgotten. Only the
end of a link forgets one (`Turn.forgets`), so over a run the fragments add up
(`Endpoint.counters_balance`).
-/

namespace VehicleLink

/-! ## Counts -/

theorem length_writesOf (cs : List (Call × Bool)) :
    (writesOf cs).length = cs.countP fun c => c.1.isWrite := by
  rw [writesOf, List.length_filterMap_eq_countP]
  refine List.countP_congr ?_
  rintro ⟨c, ok⟩ -
  cases c <;> simp [Call.isWrite]

theorem countP_writesOf (cs : List (Call × Bool)) :
    (writesOf cs).countP (·.2) = cs.countP fun c => c.1.isWrite && c.2 := by
  rw [writesOf, List.countP_filterMap]
  refine List.countP_congr ?_
  rintro ⟨c, ok⟩ -
  cases c <;> simp [Call.isWrite]

/-- What is counted of the fragments that were handed to a radio. -/
structure Counts where
  submitted : Nat
  acknowledged : Nat
  failed : Nat
  pending : Nat

/-- From one count to another by the fragments that were handed to the radio, while so many in
flight were forgotten. -/
structure Booked (forgotten : Nat) (writes : List (List UInt8 × Bool)) (c c' : Counts) : Prop where
  submitted : c'.submitted = c.submitted + writes.countP (·.2)
  settled : c'.acknowledged + c'.failed + c'.pending + forgotten =
    c.acknowledged + c.failed + c.pending + writes.length
  taken : c'.acknowledged + c'.pending + c.submitted ≤ c.acknowledged + c.pending + c'.submitted

theorem Booked.refl (c : Counts) : Booked 0 [] c c := ⟨rfl, rfl, Nat.le_refl _⟩

namespace Booked

variable {c : Counts} (fragment : List UInt8)

theorem sent (h : c.pending = 0) :
    Booked 0 [(fragment, true)] c { c with submitted := c.submitted + 1, pending := 1 } :=
  ⟨rfl, by simp [h], by simp only [h]; omega⟩

theorem turnedAway (h : c.pending = 0) :
    Booked 0 [(fragment, false)] c { c with failed := c.failed + 1, pending := 0 } :=
  ⟨rfl, by simp [h]; omega, by simp [h]⟩

theorem acknowledged (h : c.pending = 1) :
    Booked 0 [] c { c with acknowledged := c.acknowledged + 1, pending := 0 } :=
  ⟨rfl, by simp [h]; omega, by simp [h]⟩

theorem failed (h : c.pending = 1) :
    Booked 0 [] c { c with failed := c.failed + 1, pending := 0 } :=
  ⟨rfl, by simp [h]; omega, by simp [h]⟩

theorem forgotten (c : Counts) : Booked c.pending [] c { c with pending := 0 } :=
  ⟨rfl, by simp, by simp⟩

end Booked

theorem Booked.trans {m n : Nat} {ws vs : List (List UInt8 × Bool)} {c c' c'' : Counts}
    (h₁ : Booked m ws c c') (h₂ : Booked n vs c' c'') : Booked (m + n) (ws ++ vs) c c'' := by
  obtain ⟨hsubmitted₁, hsettled₁, htaken₁⟩ := h₁
  obtain ⟨hsubmitted₂, hsettled₂, htaken₂⟩ := h₂
  refine ⟨?_, ?_, by omega⟩
  · rw [List.countP_append]
    omega
  · rw [List.length_append]
    omega

/-! ## The operations -/

namespace Endpoint

variable {ρ σ : Type}

def counts (w : Endpoint ρ σ) : Counts where
  submitted := w.transport.tally.submitted
  acknowledged := w.transport.tally.acknowledged
  failed := w.transport.tally.failed
  pending := w.transport.outbound.queue.pending

theorem counts_of_transport {w w' : Endpoint ρ σ} (h : w'.transport = w.transport) :
    w'.counts = w.counts := by
  rw [counts, h]
  rfl

theorem pending_of_down {s : LinkSettings} {w : Endpoint ρ σ} (hs : Sound s w.transport)
    (hdown : w.isUp = false) : w.counts.pending = 0 := by
  simp [counts, FragmentQueue.pending, hs.unsent hdown]

variable [Radio ρ] {w w' w'' : Endpoint (Logged ρ) σ} {n : Nat} {s : LinkSettings}

/-- The calls between two logs are booked. -/
def Books (forgotten : Nat) (w w' : Endpoint (Logged ρ) σ) : Prop :=
  ∃ cs, w'.radio.log = w.radio.log ++ cs ∧ Booked forgotten (writesOf cs) w.counts w'.counts

omit [Radio ρ] in
theorem Books.trans {m : Nat} (h₁ : Books m w w') (h₂ : Books n w' w'') : Books (m + n) w w'' := by
  obtain ⟨cs, hlog, hcs⟩ := h₁
  obtain ⟨ds, hlater, hds⟩ := h₂
  refine ⟨cs ++ ds, by rw [hlater, hlog, List.append_assoc], ?_⟩
  rw [writesOf_append]
  exact hcs.trans hds

/-- Without a write only what was in flight can be booked. -/
theorem books_of_quiet (h : Quiet w w') (hbooked : Booked n [] w.counts w'.counts) :
    Books n w w' := by
  obtain ⟨cs, hlog, hcs⟩ := h.log
  refine ⟨cs, hlog, ?_⟩
  rw [writesOf_eq_nil hcs]
  exact hbooked

theorem books_of_same (h : Quiet w w') (hsame : w'.counts = w.counts) : Books 0 w w' :=
  books_of_quiet h (hsame ▸ Booked.refl _)

theorem books_aside (h : Aside w w') : Books 0 w w' := by
  refine books_of_same h.quiet ?_
  rw [counts, counts, h.link.tally, h.link.outbound]

theorem books_send {fragment : List UInt8} {queue : FragmentQueue}
    (hnext : w.transport.outbound.queue.next? = some (fragment, queue)) :
    Books 0 w (w.send fragment queue).2 := by
  obtain ⟨hidle, -, -, rfl⟩ := FragmentQueue.next?_eq_some hnext
  have hbefore : w.counts.pending = 0 := by simp [counts, FragmentQueue.pending, hidle]
  have hlog {ok ok' : Bool} (h : ok = ok') : w.radio.log ++ [(.write .write fragment, ok)] =
      w.radio.log ++ [(.write .write fragment, ok')] := by rw [h]
  unfold send
  dsimp only
  split
  · rename_i htaken
    exact ⟨[(.write .write fragment, true)], hlog htaken, .sent fragment hbefore⟩
  · rename_i hrefused
    exact ⟨[(.write .write fragment, false)], hlog (eq_false_of_ne_true hrefused),
      .turnedAway fragment hbefore⟩

theorem books_drain (w : Endpoint (Logged ρ) σ) : Books 0 w w.drain.2 := by
  rw [drain_eq]
  split
  · split
    · rename_i hnext
      exact books_send hnext
    · exact books_of_same (.of_air rfl) rfl
  · exact books_of_same (.of_air rfl) rfl

theorem books_write (bytes : List UInt8) (w : Endpoint (Logged ρ) σ) :
    Books 0 w (w.write bytes).2 := by
  have h := answered_write bytes w
  generalize (w.write bytes).1 = ok, (w.write bytes).2 = w' at h ⊢
  cases h with
  | @accepted queue _ _ _ hqueue =>
    have hqueued : Books 0 w (w.withQueue queue) := by
      subst hqueue
      exact books_of_same (.of_air rfl) rfl
    exact hqueued.trans (books_drain _)
  | _ => exact books_of_same (.of_air rfl) rfl

theorem books_tryCandidates (cs : List Candidate) (hw : w.transport.connection = .disconnected) :
    Books 0 w (tryCandidates cs w) := by
  refine books_of_same (attempted_tryCandidates cs hw).quiet ?_
  induction cs generalizing w with
  | nil => rfl
  | cons c rest ih =>
    rw [tryCandidates_cons hw]
    split
    · rfl
    · exact ih (w := w.turnedAway c rest) hw

theorem books_seek [DeviceStore σ] {target : Option Address} (h : Seek target w w') :
    Books 0 w w' := by
  cases h with
  | idle h => exact books_aside h
  | tries cs hw hu hcs =>
    have hcleared : Books 0 w (w.queueing []) := books_of_same (.of_air rfl) rfl
    exact (hcleared.trans (books_aside hu)).trans
      (books_tryCandidates cs (hu.link.connection.trans hw))

/-- A disconnect drops what is in flight. -/
theorem books_disconnect (hs : Sound s w.transport) :
    Books w.counts.pending w w.disconnect := by
  unfold disconnect
  dsimp only
  split
  · rename_i hnone
    change w.transport.connection.requestTeardown? = none at hnone
    have hdown : w.isUp = false := by
      cases hc : w.transport.connection with
      | disconnected => simp [isUp, hc, Connection.isConnected]
      | _ => simp [hc, Connection.requestTeardown?] at hnone
    rw [pending_of_down hs hdown]
    exact books_of_same (.of_air rfl) rfl
  · exact books_of_quiet (.of_submit rfl rfl) (.forgotten w.counts)

/-- A link comes up with nothing in flight, so nothing is forgotten. -/
theorem counts_opening [DeviceStore σ] (hidle : w.counts.pending = 0) (p : Address) :
    (w.opening p).counts = w.counts := by
  have htally : (w.greeting p).transport.tally = w.transport.tally := by
    unfold greeting
    dsimp only
    split <;> rfl
  have hcounts : (w.opening p).counts = { w.counts with pending := 0 } := by
    simp [counts, opening, update, (aside_endScan (w.greeting p)).link.tally, htally,
      Outbound.reset, FragmentQueue.reset, FragmentQueue.pending]
  rw [hcounts, ← hidle]

theorem books_linkUp [DeviceStore σ] (hs : Sound s w.transport) : Books 0 w w.onLinkUp := by
  refine books_of_quiet (linkUpDone_onLinkUp w).quiet ?_
  cases hc : w.transport.connection with
  | connecting p teardown =>
    have hidle : w.counts.pending = 0 :=
      pending_of_down hs (by simp [isUp, hc, Connection.isConnected])
    cases teardown with
    | true =>
      rw [onLinkUp, hc]
      exact .refl _
    | false =>
      have hcounts := counts_opening hidle p
      rw [onLinkUp_of_wanted hc]
      split
      · exact hcounts ▸ .refl _
      · exact hcounts ▸ .refl _
  | _ =>
    rw [onLinkUp, hc]
    exact .refl _

theorem books_linkDown [DeviceStore σ] (hs : Sound s w.transport) :
    Books w.counts.pending w w.onLinkDown := by
  have hdown := linkDownDone_onLinkDown w
  have hgone : Books w.counts.pending w w.gone :=
    books_of_quiet (.of_air rfl) (.forgotten w.counts)
  generalize w.onLinkDown = w' at hdown ⊢
  cases hdown with
  | ignored h =>
    rw [pending_of_down hs (by simp [isUp, h, Connection.isConnected])]
    exact books_of_same (.of_air rfl) rfl
  | failed p h =>
    have hnoted : Books 0 w.gone (w.gone.update (Transport.noteError (.connectFailed p))) :=
      books_of_same (.of_air rfl) rfl
    exact (hgone.trans hnoted).trans (books_tryCandidates _ rfl)
  | _ => exact hgone

theorem books_discovered (success : Bool) (w : Endpoint (Logged ρ) σ) :
    Books 0 w (w.onServicesDiscovered success) := by
  have hasked : Books 0 w (w.submit (.enableNotify .notify)).2 :=
    books_of_same (.submit _ rfl) rfl
  have hdropped (v : Endpoint (Logged ρ) σ) : Books 0 v v.dropLink :=
    books_of_same (.of_submit rfl rfl) rfl
  unfold onServicesDiscovered
  dsimp only
  split
  · exact books_of_same (.of_air rfl) rfl
  · split
    · split
      · have hready : Books 0 w (w.submit (.enableNotify .notify)).2.readied :=
          books_of_same (.of_submit rfl rfl) rfl
        exact hready.trans (books_drain _)
      · exact hasked.trans (hdropped _)
    · exact hdropped w

theorem books_completed (success : Bool) (w : Endpoint (Logged ρ) σ) :
    Books 0 w (w.onWriteComplete success) := by
  cases hflight : w.transport.outbound.queue.inFlight with
  | false =>
    rw [onWriteComplete_of_idle hflight]
    exact books_of_same (.of_air rfl) rfl
  | true =>
    have hpending : w.counts.pending = 1 := by simp [counts, FragmentQueue.pending, hflight]
    cases success with
    | false =>
      rw [onWriteComplete, FragmentQueue.complete, hflight]
      exact books_of_quiet (.of_air rfl) (.failed hpending)
    | true =>
      have hdone := completedDone_onWriteComplete true w
      generalize w.onWriteComplete true = w' at hdone ⊢
      cases hdone with
      | unexpected hidle => cases hidle.symm.trans hflight
      | acknowledged =>
        have hacknowledged : Books 0 w w.acknowledged :=
          books_of_quiet (.of_air rfl) (.acknowledged hpending)
        exact hacknowledged.trans (books_drain _)
      | failed _ hs => cases hs

theorem pending_disconnect (hs : Sound s w.transport) : w.disconnect.counts.pending = 0 := by
  have h := ended_disconnect w
  generalize w.disconnect = w' at h ⊢
  cases h with
  | none hc =>
    change w.counts.pending = 0
    exact pending_of_down hs (by simp [isUp, hc, Connection.isConnected])
  | asked c hc air now setup connected outbound =>
    simp [counts, outbound, Outbound.reset, FragmentQueue.reset, FragmentQueue.pending]

/-- A stop drops what is in flight, or finds nothing running. -/
theorem books_stop (hs : Sound s w.transport) :
    w.stop = w ∨ Books w.counts.pending w w.stop ∧ w.stop.counts.pending = 0 := by
  rcases stop_cases w with heq | ⟨u, hu, heq⟩
  · exact .inl heq
  · have hhalted : Sound s w.halted.transport := hs.of_eq rfl rfl rfl rfl
    have hsound : Sound s u.transport := hhalted.aside hu
    have hcounts : u.counts.pending = w.counts.pending := by
      simp [counts, hu.link.outbound]
      rfl
    have hbefore : Books 0 w u :=
      (books_of_same (.of_air rfl) rfl : Books 0 w w.halted).trans (books_aside hu)
    have hall := hbefore.trans (books_disconnect hsound)
    rw [Nat.zero_add, hcounts] at hall
    rw [heq]
    exact .inr ⟨hall, pending_disconnect hsound⟩

theorem books_handle [DeviceStore σ] (hs : Sound s w.transport) {e : Event} (he : e ≠ .linkDown) :
    Books 0 w (w.handle e) := by
  cases e with
  | scanResult d => exact books_aside (aside_onScanResult d w)
  | scanComplete => exact books_aside (aside_onScanComplete w)
  | linkUp => exact books_linkUp hs
  | linkDown => exact absurd rfl he
  | servicesDiscovered success => exact books_discovered success w
  | writeComplete success => exact books_completed success w
  | received fragment =>
    obtain ⟨inbound, heq⟩ := onReceived_eq fragment w
    rw [handle, heq]
    exact books_of_same (.of_air rfl) rfl

/-- No other action of a consumer drops what is in flight. -/
theorem books_act [DeviceStore σ] {a : Action} (ha : a.byConsumer = true)
    (hdisconnect : a ≠ .disconnect) (hstop : a ≠ .stop) (w : Endpoint (Logged ρ) σ) :
    Books 0 w (w.act a) := by
  cases a with
  | start => exact books_of_same (.of_air rfl) rfl
  | stop => exact absurd rfl hstop
  | connect target => exact books_seek (seek_connect target w)
  | disconnect => exact absurd rfl hdisconnect
  | pollAt instant => exact books_seek (seek_pollAt instant w)
  | startScan => exact books_aside (aside_beginScan w)
  | write bytes => exact books_write bytes w
  | read n =>
    obtain ⟨inbound, heq⟩ := read_eq n w
    rw [act, heq]
    exact books_of_same (.of_air rfl) rfl
  | setTarget target =>
    obtain ⟨policy, heq⟩ := setTarget_eq target w
    rw [act, heq]
    exact books_of_same (.of_air rfl) rfl
  | drainDue => exact books_drain w
  | wait d => exact books_of_same (.of_air rfl) rfl
  | handle e => cases ha
  | next => cases ha
  | raise e => cases ha

end Endpoint

/-- No more is buffered than was received. -/
theorem Inflow.buffered {up up' : Bool} {b b' : Inbound} {came taken : List UInt8}
    (h : Inflow up up' b came taken b') (hb : b.available ≤ b.received) :
    b'.available ≤ b'.received := by
  cases h with
  | kept => exact hb
  | missed => exact hb
  | joined => simpa [Inbound.available, Inbound.receive] using hb
  | read n => simp [Inbound.available, Inbound.read] at hb ⊢; omega
  | cleared => exact Nat.zero_le _

/-! ## Turns -/

namespace Turn

open Endpoint

variable {ρ σ : Type} [Radio ρ] [DeviceStore σ] {s : LinkSettings} {t : Turn ρ σ}

/-- A consumer ends the link, or the link goes down. -/
def unlinks (t : Turn ρ σ) : Bool :=
  match t.step with
  | .act .disconnect => true
  | .act .stop => true
  | _ => t.before.isUp && !t.after.isUp

/-- The link is ended with a fragment in flight, which is not in flight any more. -/
def forgets (t : Turn ρ σ) : Bool :=
  t.unlinks && t.before.transport.outbound.queue.inFlight &&
    !t.after.transport.outbound.queue.inFlight

theorem forgets_of_linked (h : t.unlinks = false) : t.forgets = false := by simp [forgets, h]

theorem forgets_of_unlinks (h : t.unlinks = true) (hafter : t.after.counts.pending = 0) :
    t.forgets.toNat = t.before.counts.pending := by
  have hidle : t.after.transport.outbound.queue.inFlight = false := by
    simpa [counts, FragmentQueue.pending] using hafter
  cases hflight : t.before.transport.outbound.queue.inFlight <;>
    simp [forgets, h, hidle, hflight, counts, FragmentQueue.pending]

/-- Whatever is in flight before a turn after which the link is down is forgotten. -/
theorem forgets_of_down (hs : Sound s t.before.transport) (hdown : t.after.isUp = false) :
    t.forgets.toNat = t.before.counts.pending := by
  have hafter : t.after.counts.pending = 0 :=
    pending_of_down (sound_step hs t.step.logged) hdown
  cases hup : t.before.isUp with
  | true =>
    have hunlinks : t.unlinks = true := by
      unfold unlinks
      split <;> simp [hup, hdown]
    exact forgets_of_unlinks hunlinks hafter
  | false =>
    have hidle : t.before.transport.outbound.queue.inFlight = false := hs.unsent hup
    simp [forgets, hidle, counts, FragmentQueue.pending]

theorem unlinks_of_up (hdisconnect : t.step ≠ .act .disconnect) (hstop : t.step ≠ .act .stop)
    (hup : t.before.isUp = true → t.after.isUp = true) : t.unlinks = false := by
  unfold unlinks
  split
  · exact absurd (by assumption) hdisconnect
  · exact absurd (by assumption) hstop
  · cases h : t.before.isUp with
    | false => rfl
    | true => simp [hup h]

theorem books_acts (hs : Sound s t.before.transport) {a : Action} (ha : a.byConsumer = true)
    (hstep : t.step = .act a) : Books t.forgets.toNat t.before t.after := by
  have hafter := after_of_step hstep
  by_cases hdisconnect : a = .disconnect
  · subst hdisconnect
    have hunlinks : t.unlinks = true := by rw [unlinks, hstep]
    change t.after = t.before.disconnect at hafter
    rw [forgets_of_unlinks hunlinks (by rw [hafter]; exact pending_disconnect hs), hafter]
    exact books_disconnect hs
  by_cases hstop : a = .stop
  · subst hstop
    have hunlinks : t.unlinks = true := by rw [unlinks, hstep]
    change t.after = t.before.stop at hafter
    rcases books_stop hs with heq | ⟨hbooks, hpending⟩
    · have hno : t.forgets = false := by
        rw [forgets, hafter, heq]
        cases t.before.transport.outbound.queue.inFlight <;> simp
      rw [hno, hafter, heq]
      exact books_of_same (.of_air rfl) rfl
    · rw [forgets_of_unlinks hunlinks (by rw [hafter]; exact hpending), hafter]
      exact hbooks
  · have hunlinks : t.unlinks = false := by
      refine unlinks_of_up ?_ ?_ fun hup => ?_
      · rw [hstep]
        exact fun h => hdisconnect (by injection h)
      · rw [hstep]
        exact fun h => hstop (by injection h)
      · rw [hafter, isUp_act ha]
        exact hup
    rw [forgets_of_linked hunlinks, hafter]
    exact books_act ha hdisconnect hstop t.before

/-- A link that stays up forgets nothing. -/
theorem isUp_handle {e : Event} (he : e ≠ .linkDown) {w : Endpoint ρ σ} (hup : w.isUp = true) :
    (w.handle e).isUp = true := by
  by_cases hlink : e = .linkUp
  · subst hlink
    exact (isUp_onLinkUp w).2 (.inl hup)
  · rw [(calm_handle e w hlink he).isUp]
    exact hup

/-- The fragments of a turn are booked. -/
theorem books (hs : Sound s t.before.transport) : Books t.forgets.toNat t.before t.after := by
  cases t.kind with
  | acts a ha hstep => exact books_acts hs ha hstep
  | still idle event transport log =>
    have hno : t.forgets = false := by
      rw [forgets, transport]
      cases t.before.transport.outbound.queue.inFlight <;> simp
    rw [hno]
    exact ⟨[], by simp [log], counts_of_transport transport ▸ .refl _⟩
  | handles e w idle event transport radio after =>
    have hw : Sound s w.transport := transport ▸ hs
    have hcounts : w.counts = t.before.counts := counts_of_transport transport
    have hisUp : w.isUp = t.before.isUp := by rw [isUp, transport]; rfl
    have hbooks {n : Nat} (h : Books n w t.after) : Books n t.before t.after := by
      rw [Books, ← radio, ← hcounts]
      exact h
    by_cases hdown : e = .linkDown
    · subst hdown
      have hafter : t.after.isUp = false := by rw [after]; exact isUp_onLinkDown w
      rw [forgets_of_down hs hafter, ← hcounts]
      refine hbooks ?_
      rw [after]
      exact books_linkDown hw
    · have hunlinks : t.unlinks = false := by
        refine unlinks_of_up (fun h => ?_) (fun h => ?_) fun hup => ?_
        · cases idle _ h
        · cases idle _ h
        rw [after]
        exact isUp_handle hdown (hisUp.trans hup)
      rw [forgets_of_linked hunlinks]
      refine hbooks ?_
      rw [after]
      exact books_handle hw hdown

end Turn

/-! ## Runs -/

namespace Endpoint

variable {ρ σ : Type} [Radio ρ] [DeviceStore σ] {w : Endpoint (Logged ρ) σ} {s : LinkSettings}

theorem calls_run (steps : List (Step ρ σ)) (w : Endpoint (Logged ρ) σ) :
    (w.runLogged steps).radio.log = w.radio.log ++ (turns steps w).flatMap Turn.calls := by
  induction steps using List.reverseRecOn with
  | nil => exact (List.append_nil _).symm
  | append_singleton steps st ih =>
    obtain ⟨t, hturns, -, hbefore, hafter⟩ := exists_last_turn steps st w
    rw [hturns, ← hafter, t.log_after, hbefore, ih]
    simp

theorem books_run (hs : Sound s w.transport) (steps : List (Step ρ σ)) :
    Books ((turns steps w).countP Turn.forgets) w (w.runLogged steps) := by
  induction steps using List.reverseRecOn with
  | nil => exact books_of_same (.of_air rfl) rfl
  | append_singleton steps st ih =>
    obtain ⟨t, hturns, -, hbefore, hafter⟩ := exists_last_turn steps st w
    have hturn := t.books (hbefore ▸ sound_runLogged hs steps)
    rw [hbefore, hafter] at hturn
    have hcount : (turns (steps ++ [st]) w).countP Turn.forgets =
        (turns steps w).countP Turn.forgets + t.forgets.toNat := by
      rw [hturns, List.countP_append, List.countP_singleton]
      cases t.forgets <;> rfl
    rw [hcount]
    exact ih.trans hturn

theorem buffered_run (h : w.transport.inbound.available ≤ w.transport.inbound.received)
    (steps : List (Step ρ σ)) :
    (w.runLogged steps).transport.inbound.available ≤
      (w.runLogged steps).transport.inbound.received := by
  induction steps using List.reverseRecOn with
  | nil => exact h
  | append_singleton steps st ih =>
    obtain ⟨t, -, -, hbefore, hafter⟩ := exists_last_turn steps st w
    rw [← hafter]
    exact t.inflow.buffered (hbefore ▸ ih)

theorem length_askedIn (ts : List (Turn ρ σ)) :
    (askedIn ts).length = (ts.flatMap Turn.calls).countP fun c => c.1.isConnect := by
  have hasked : askedIn ts = attemptsIn (ts.flatMap Turn.calls) := by
    rw [attemptsIn, List.filterMap_flatMap]
    rfl
  rw [hasked, attemptsIn, List.length_filterMap_eq_countP]
  refine List.countP_congr ?_
  rintro ⟨c, ok⟩ -
  cases c <;> simp [Call.isConnect]

/-- The counters of any run of a transport that was created. Every attempt and every fragment that
the radio took is counted; the fragments that were handed to it were acknowledged, failed, are in
flight or were forgotten with the link, each in one of these ways. -/
theorem counters_balance {target : Option String} {radio : Logged ρ} {store : σ}
    (hw : create s target radio store = .ok w) (steps : List (Step ρ σ)) :
    let cs := (turns steps w).flatMap Turn.calls
    let u := w.runLogged steps
    let h := u.transport.health
    let pending := u.transport.outbound.queue.pending
    u.radio.log = radio.log ++ cs ∧
    h.submitted = cs.countP (fun c => c.1.isWrite && c.2) ∧
    h.attempts = cs.countP (fun c => c.1.isConnect) ∧
    h.acknowledged + h.failed + pending + (turns steps w).countP Turn.forgets =
      cs.countP (fun c => c.1.isWrite) ∧
    h.acknowledged + pending ≤ h.submitted ∧
    h.buffered ≤ h.received := by
  intro cs u h pending
  have hsound := sound_create hw
  have hattempts := attempts_run steps w
  have hcalls := calls_run steps w
  obtain ⟨ds, hlog, hsubmitted, hsettled, htaken⟩ := books_run hsound steps
  obtain rfl : ds = cs := List.append_cancel_left (hlog.symm.trans hcalls)
  rw [countP_writesOf] at hsubmitted
  rw [length_writesOf] at hsettled
  rw [length_askedIn] at hattempts
  obtain ⟨a, devices, -, rfl⟩ := create_eq hw
  refine ⟨hcalls, hsubmitted.trans (Nat.zero_add _), hattempts.trans (Nat.zero_add _),
    hsettled.trans (Nat.zero_add _), Nat.le_trans htaken (Nat.le_of_eq (Nat.zero_add _)), ?_⟩
  exact buffered_run (w := fresh s a devices radio store) (Nat.le_refl 0) steps

/-- One fragment is acknowledged, one fails and takes the queue with it, one is acknowledged again,
the radio turns one away, and the last is in flight when the link is given up. -/
theorem counters_balance_of_forgotten_fragment :
    ∃ (w : Endpoint (Logged Radio.Simulated) Store.Memory)
      (steps : List (Step Radio.Simulated Store.Memory)),
      create { maxFragment := 2, writeDelay := 0 } none
        ⟨{ behaviour := { autoAcknowledge := false } }, []⟩ {} = .ok w ∧
      (w.runLogged steps).transport.health.acknowledged = 2 ∧
      (w.runLogged steps).transport.health.failed = 2 ∧
      (w.runLogged steps).transport.outbound.queue.pending = 0 ∧
      (turns steps w).countP Turn.forgets = 1 ∧
      ((turns steps w).flatMap Turn.calls).countP (fun c => c.1.isWrite) = 5 ∧
      (w.runLogged steps).transport.health.submitted =
        ((turns steps w).flatMap Turn.calls).countP (fun c => c.1.isWrite && c.2) := by
  let settings : LinkSettings := { maxFragment := 2, writeDelay := 0 }
  let radio : Logged Radio.Simulated := ⟨{ behaviour := { autoAcknowledge := false } }, []⟩
  let steps : List (Step Radio.Simulated Store.Memory) :=
    [.act .start, .act (.connect (some ⟨1, 2, 3, 4, 5, 6⟩)), .act .next, .act .next,
      .act (.write [1, 2, 3]), .act (.handle (.writeComplete true)),
      .act (.handle (.writeComplete false)), .act (.write []), .act (.write [4]),
      .act (.handle (.writeComplete true)),
      .radio (fun r => { r with behaviour := { r.behaviour with refuseWrite := true } }),
      .act (.write [5]), .act (.write []),
      .radio (fun r => { r with behaviour := { r.behaviour with refuseWrite := false } }),
      .act (.write [6]), .act .disconnect]
  have hw : create settings none radio ({} : Store.Memory) = .ok _ := rfl
  exact ⟨_, steps, hw, by decide, by decide, by decide, by decide, by decide,
    (counters_balance hw steps).2.1⟩

end Endpoint

end VehicleLink
