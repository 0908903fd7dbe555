import VehicleLink.Proofs.CallOrder
import VehicleLink.Proofs.OutboundStream
import VehicleLink.Proofs.Policies

/-!
# Fast polling after a loss

A link that ends without a consumer having given it up makes polling fast, until a link is
established of which the services are asked for with success (`fast_since_loss`).

A link that failed its purpose is not lost at once: it is asked to end and stays up until the radio
reports it down, which then reads like the end of a link that a consumer gave up. So what an
operation does is told of three things together (`Spurs`): fast polling, links that are up and to
end (`dismissed`), and links that ended. While a link is up that no consumer gave up, it is
dismissed only with fast polling on (`fast_of_dismissed`).
-/

namespace VehicleLink

namespace Endpoint

variable {ρ σ : Type}

/-- A link is up that is to end. -/
def dismissed (w : Endpoint ρ σ) : Bool := w.isUp && w.transport.connection.teardownRequested

theorem dismissed_of_same {w w' : Endpoint ρ σ}
    (h : w'.transport.connection = w.transport.connection) : w'.dismissed = w.dismissed := by
  rw [dismissed, dismissed, isUp, isUp, h]

theorem not_dismissed_of_down {w : Endpoint ρ σ} (h : w.isUp = false) : w.dismissed = false := by
  rw [dismissed, h, Bool.false_and]

/-- From one endpoint to another: fast polling stays on, and a link comes to be dismissed or ends
without having been dismissed only with fast polling on. -/
structure Spurs (w w' : Endpoint ρ σ) : Prop where
  kept : w.policy.fast = true → w'.policy.fast = true
  dismissed : w'.dismissed = true → w.dismissed = true ∨ w'.policy.fast = true
  ended : w.isUp = true → w'.isUp = false → w.dismissed = true ∨ w'.policy.fast = true

theorem Spurs.of_fast {w w' : Endpoint ρ σ} (h : w'.policy.fast = true) : Spurs w w' :=
  ⟨fun _ => h, fun _ => .inr h, fun _ _ => .inr h⟩

theorem Spurs.of_same {w w' : Endpoint ρ σ} (hpolicy : w'.policy = w.policy)
    (hup : w'.isUp = w.isUp) (hdismissed : w'.dismissed = true → w.dismissed = true) :
    Spurs w w' where
  kept hfast := hpolicy ▸ hfast
  dismissed h := .inl (hdismissed h)
  ended h h' := by rw [hup, h] at h'; cases h'

theorem Spurs.of_connection {w w' : Endpoint ρ σ} (hpolicy : w'.policy = w.policy)
    (hconnection : w'.transport.connection = w.transport.connection) : Spurs w w' :=
  .of_same hpolicy (congrArg Connection.isConnected hconnection)
    (dismissed_of_same hconnection ▸ id)

section

variable [Radio ρ] {w w' : Endpoint ρ σ}

/-! ## What consumers do -/

theorem dismissed_seek [DeviceStore σ] {target : Option Address} (h : Seek target w w') :
    w'.dismissed = true → w.dismissed = true := by
  cases h with
  | idle ha => rw [dismissed_of_same ha.link.connection]; exact id
  | tries cs hw hu hcs =>
    have hdown := (attempted_tryCandidates cs (hu.link.connection.trans hw)).isUp
    rw [not_dismissed_of_down hdown]
    exact nofun

variable [DeviceStore σ]

theorem fast_act {a : Action} (ha : a.byConsumer = true) (w : Endpoint ρ σ)
    (h : w.policy.fast = true) : (w.act a).policy.fast = true := by
  by_cases htarget : ∃ target, a = .setTarget target
  · obtain ⟨target, rfl⟩ := htarget
    rw [act]
    rcases policy_setTarget w target with hpolicy | ⟨next, linked, hpolicy⟩
    · rw [hpolicy, h]
    · rw [hpolicy]
      simp [Reconnect.Policy.retarget, h]
  · by_cases hpoll : ∃ instant, a = .pollAt instant
    · obtain ⟨instant, rfl⟩ := hpoll
      rw [act, policy_pollAt]
      split
      · exact h
      · exact h
    · rw [policy_act w ha (fun target heq => htarget ⟨target, heq⟩)
        (fun instant heq => hpoll ⟨instant, heq⟩)]
      exact h

/-- Only by a call to disconnect or to stop a consumer dismisses a link. -/
theorem dismissed_act {a : Action} (ha : a.byConsumer = true) (hdisconnect : a ≠ .disconnect)
    (hstop : a ≠ .stop) (w : Endpoint ρ σ) :
    (w.act a).dismissed = true → w.dismissed = true := by
  have h := acted_act ha w
  generalize w.act a = w' at h ⊢
  cases h with
  | stops hu h => exact absurd rfl hstop
  | ends h => exact absurd rfl hdisconnect
  | seeks running h => exact dismissed_seek h
  | aside h => rw [dismissed_of_same h.link.connection]; exact id
  | writes h => rw [dismissed_of_same h.written.course.connection]; exact id
  | drains h => rw [dismissed_of_same h.course.connection]; exact id
  | _ => exact id

theorem spurs_act {a : Action} (ha : a.byConsumer = true) (hdisconnect : a ≠ .disconnect)
    (hstop : a ≠ .stop) (w : Endpoint ρ σ) : Spurs w (w.act a) where
  kept := fast_act ha w
  dismissed h := .inl (dismissed_act ha hdisconnect hstop w h)
  ended h h' := by rw [isUp_act ha, h] at h'; cases h'

/-! ## Reports -/

theorem spurs_onLinkDown (w : Endpoint ρ σ) : Spurs w w.onLinkDown := by
  rcases policy_onLinkDown w with hfast | ⟨hsame, hwanted⟩
  · exact .of_fast (by rw [hfast])
  · refine ⟨fun hfast => hsame ▸ hfast, fun h => ?_, fun hup _ => .inl ?_⟩
    · rw [not_dismissed_of_down (isUp_onLinkDown w)] at h
      cases h
    · rw [Endpoint.dismissed, hup, hwanted hup]
      rfl

theorem spurs_onServicesDiscovered (success : Bool) (w : Endpoint ρ σ) :
    Spurs w (w.onServicesDiscovered success) := by
  rcases policy_onServicesDiscovered w success with hfast | ⟨hsame, hteardown⟩
  · exact .of_fast (by rw [hfast])
  · have hup := (calm_handle (.servicesDiscovered success) w nofun nofun).isUp
    refine .of_same hsame hup fun h => ?_
    change (w.onServicesDiscovered success).isUp = w.isUp at hup
    rwa [Endpoint.dismissed, hteardown, hup] at h

/-- A report other than that of a link that came up. -/
theorem spurs_handle {e : Event} (he : e ≠ .linkUp) (w : Endpoint ρ σ) : Spurs w (w.handle e) := by
  cases e with
  | scanResult d =>
    exact .of_connection (policy_onScanResult w d) (aside_onScanResult d w).link.connection
  | scanComplete =>
    rcases policy_onScanComplete w with hsame | hfast
    · exact .of_connection hsame (aside_onScanComplete w).link.connection
    · exact .of_fast (congrArg Reconnect.Policy.fast hfast)
  | linkUp => exact absurd rfl he
  | linkDown => exact spurs_onLinkDown w
  | servicesDiscovered success => exact spurs_onServicesDiscovered success w
  | writeComplete success =>
    exact .of_connection (policy_onWriteComplete w success)
      (completedDone_onWriteComplete success w).course.connection
  | received fragment =>
    refine .of_connection (policy_onReceived w fragment) ?_
    obtain ⟨inbound, heq⟩ := onReceived_eq fragment w
    rw [Endpoint.handle, heq]
    rfl

/-- A link that came up but is not wanted. -/
theorem spurs_onLinkUp {w : Endpoint ρ σ}
    (hno : ∀ p, w.transport.connection ≠ .connecting p false) : Spurs w w.onLinkUp := by
  have hsame : w.onLinkUp.policy = w.policy := policy_onLinkUp_of_unwanted hno
  have hup := linkUpDone_onLinkUp w
  generalize w.onLinkUp = w' at hup hsame ⊢
  cases hup with
  | unexpected hc => exact .of_connection rfl rfl
  | cancelled p hc traffic connection =>
    have hdown : w'.isUp = false := by
      rw [isUp, connection]
      rfl
    have hbefore : w.isUp = false := by
      rw [isUp, hc]
      rfl
    refine .of_same hsame (hdown.trans hbefore.symm) fun hdismissed => ?_
    rw [not_dismissed_of_down hdown] at hdismissed
    cases hdismissed
  | kept p hc => exact absurd hc (hno p)
  | dropped p hc => exact absurd hc (hno p)

end

/-- A link that came up and is wanted has to end at once exactly if the radio will not discover its
services. -/
theorem LinkUpDone.teardownRequested [Radio ρ] {w w' : Endpoint (Logged ρ) σ} {p : Address}
    (hc : w.transport.connection = .connecting p false) (h : LinkUpDone w w')
    {cs : List (Call × Bool)} (hlog : w'.radio.log = w.radio.log ++ cs) :
    w'.transport.connection.teardownRequested = true ↔ (.discover, true) ∉ cs := by
  have hasked {u : Endpoint (Logged ρ) σ} {q : Address} (ho : Opened q w u) {accepted : Bool}
      (hanswer : (u.submit .discover).1 = accepted) :
      ∃ scans,
        (u.submit .discover).2.radio.log = w.radio.log ++ (scans ++ [(.discover, accepted)]) ∧
          (.discover, true) ∉ scans := by
    obtain ⟨scans, hscans, hkind⟩ := ho.asks.log
    refine ⟨scans, ?_, fun hmem => ?_⟩
    · rw [← List.append_assoc, ← hscans, ← hanswer]
      rfl
    · have hscan : Call.isScan .discover = true := hkind _ hmem
      cases hscan
  cases h with
  | unexpected h => simp [hc, Connection.isConnecting] at h
  | cancelled q h => simp [hc] at h
  | @kept u q h opened taken =>
    obtain ⟨scans, hscans, -⟩ := hasked opened taken
    obtain rfl := List.append_cancel_left (hlog.symm.trans hscans)
    change u.transport.connection.teardownRequested = true ↔ _
    simp [opened.connection, Connection.teardownRequested]
  | dropped q h opened refused dropped =>
    obtain ⟨scans, hscans, hnone⟩ := hasked opened refused
    rw [log_of_air dropped.air, hscans, List.append_assoc] at hlog
    obtain rfl := List.append_cancel_left hlog
    simp [dropped.connection, Connection.teardownRequested, hnone]

end Endpoint

/-! ## Turns -/

namespace Turn

open Endpoint

variable {ρ σ : Type} [Radio ρ] [DeviceStore σ]

/-- Whether the turn ends a link that was up. -/
def endsLink (t : Turn ρ σ) : Bool := t.before.isUp && !t.after.isUp

omit [Radio ρ] [DeviceStore σ] in
/-- Whether a consumer gives up the link in the turn, by a call to disconnect or to stop. -/
def givesUp (t : Turn ρ σ) : Bool :=
  match t.step with
  | .act .disconnect => true
  | .act .stop => true
  | _ => false

/-- Whether the turn establishes a link and the radio takes up the discovery of its services. -/
def acquires (t : Turn ρ σ) : Bool := t.establishes && t.calls.contains (.discover, true)

/-- In a turn that handles the report of a link that came up and is wanted, fast polling is on
afterwards, with the link dismissed, exactly if the services will not be discovered. -/
theorem fast_of_establishes {t : Turn ρ σ} (h : t.establishes = true) :
    t.after.policy.fast = !t.acquires ∧ t.after.dismissed = !t.acquires := by
  obtain ⟨hevent, p, hp⟩ := establishes_iff.1 h
  obtain ⟨w, transport, radio, after, -⟩ := handles_of_event hevent
  change t.after = w.onLinkUp at after
  have hc : w.transport.connection = .connecting p false := transport ▸ hp
  have hlog : w.onLinkUp.radio.log = w.radio.log ++ t.calls := by
    rw [← after, radio]
    exact t.log_after
  have hteardown : w.onLinkUp.transport.connection.teardownRequested = !t.acquires := by
    rw [acquires, h, Bool.true_and, Bool.eq_iff_iff]
    simpa using (linkUpDone_onLinkUp w).teardownRequested hc hlog
  have hup : w.onLinkUp.isUp = true := (isUp_onLinkUp w).2 (.inr ⟨p, hc⟩)
  rw [after, policy_onLinkUp_of_wanted hc, dismissed, hup, Bool.true_and]
  exact ⟨hteardown, hteardown⟩

theorem spurs {t : Turn ρ σ} (hno : t.givesUp = false) (h : t.acquires = false) :
    Spurs t.before t.after := by
  by_cases hest : t.establishes = true
  · exact .of_fast (by rw [(fast_of_establishes hest).1, h]; rfl)
  · cases t.kind with
    | still idle event transport log =>
      exact .of_connection (by rw [policy, transport]; rfl) (by rw [transport])
    | acts a ha hstep =>
      rw [after_of_step hstep]
      rw [givesUp, hstep] at hno
      refine spurs_act ha ?_ ?_ t.before
      · rintro rfl
        cases hno
      · rintro rfl
        cases hno
    | handles e w idle event transport radio after =>
      have hspurs : Spurs w (w.handle e) := by
        by_cases he : e = .linkUp
        · subst he
          refine spurs_onLinkUp fun p hp => hest (establishes_iff.2 ⟨event, p, ?_⟩)
          rw [← transport]
          exact hp
        · exact spurs_handle he w
      rw [after]
      have hpolicy : t.before.policy = w.policy := by rw [policy, ← transport]; rfl
      have hdismissed : t.before.dismissed = w.dismissed := by
        rw [dismissed, isUp, ← transport]
        rfl
      have hup : t.before.isUp = w.isUp := by rw [isUp, ← transport]; rfl
      exact ⟨hpolicy ▸ hspurs.kept, hdismissed ▸ hspurs.dismissed,
        hup ▸ hdismissed ▸ hspurs.ended⟩

omit [Radio ρ] [DeviceStore σ] in
theorem step_of_givesUp {t : Turn ρ σ} (h : t.givesUp = true) :
    ∃ a, t.step = .act a ∧ a.byConsumer = true := by
  rw [givesUp] at h
  split at h
  · exact ⟨.disconnect, ‹_›, rfl⟩
  · exact ⟨.stop, ‹_›, rfl⟩
  · cases h

/-- Fast polling stays on in a turn that acquires no link. -/
theorem fast_kept {t : Turn ρ σ} (h : t.acquires = false) (hfast : t.before.policy.fast = true) :
    t.after.policy.fast = true := by
  cases hno : t.givesUp with
  | true =>
    obtain ⟨a, hstep, ha⟩ := step_of_givesUp hno
    rw [after_of_step hstep]
    exact fast_act ha t.before hfast
  | false => exact (spurs hno h).kept hfast

/-- A link that a consumer gives up ends later. -/
theorem givesUp_of_endsLink {t : Turn ρ σ} (h : t.endsLink = true) : t.givesUp = false := by
  refine eq_false_of_ne_true fun hno => ?_
  obtain ⟨a, hstep, ha⟩ := step_of_givesUp hno
  simp [endsLink, after_of_step hstep, isUp_act ha] at h

end Turn

/-! ## Runs -/

namespace Endpoint

open Turn

variable {ρ σ : Type} [Radio ρ] [DeviceStore σ] {s : LinkSettings} {w : Endpoint (Logged ρ) σ}

/-- A link ended that no consumer gave up while it was up, and since then no link was established of
which the radio took up the discovery of services. -/
def Bereft (ts : List (Turn ρ σ)) : Prop :=
  Since (fun before t => t.endsLink = true ∧ ∀ u ∈ sinceUp before, u.givesUp = false)
    (fun t => t.acquires = false) ts

/-- A link that is to end, though no consumer gave it up, makes polling fast before it has ended. -/
theorem fast_of_dismissed (hw : w.isUp = false) (steps : List (Step ρ σ))
    (hno : ∀ u ∈ sinceUp (turns steps w), u.givesUp = false)
    (h : (w.runLogged steps).dismissed = true) : (w.runLogged steps).policy.fast = true := by
  induction steps using List.reverseRecOn with
  | nil =>
    have hdown : w.dismissed = true := h
    simp [not_dismissed_of_down hw] at hdown
  | append_singleton steps st ih =>
    obtain ⟨t, hturns, -, hbefore, hafter⟩ := exists_last_turn steps st w
    rw [← hafter] at h ⊢
    rw [hturns, sinceUp_concat] at hno
    by_cases hest : t.establishes = true
    · obtain ⟨hfast, hdismissed⟩ := fast_of_establishes hest
      rw [hfast, ← hdismissed, h]
    · rw [if_neg hest] at hno
      have hspurs : Spurs t.before t.after :=
        t.spurs (hno t (by simp)) (by simp [acquires, eq_false_of_ne_true hest])
      rcases hspurs.dismissed h with hearlier | hfast
      · refine hspurs.kept ?_
        rw [hbefore] at hearlier ⊢
        exact ih (fun u hu => hno u (by simp [hu])) hearlier
      · exact hfast

theorem fast_of_bereft (hw : w.isUp = false) (steps : List (Step ρ σ))
    (h : Bereft (turns steps w)) : (w.runLogged steps).policy.fast = true := by
  induction steps using List.reverseRecOn with
  | nil => exact absurd h not_since_nil
  | append_singleton steps st ih =>
    obtain ⟨t, hturns, -, hbefore, hafter⟩ := exists_last_turn steps st w
    rw [hturns, Bereft, since_concat] at h
    rw [← hafter]
    rcases h with ⟨hends, hno⟩ | ⟨hbereft, hacquires⟩
    · obtain ⟨hup, hdown⟩ : t.before.isUp = true ∧ t.after.isUp = false := by
        simpa [endsLink] using hends
      have hacquires : t.acquires = false := by simp [acquires, establishes_eq, hdown]
      have hspurs : Spurs t.before t.after := t.spurs (givesUp_of_endsLink hends) hacquires
      rcases hspurs.ended hup hdown with hdismissed | hfast
      · refine hspurs.kept ?_
        rw [hbefore] at hdismissed ⊢
        exact fast_of_dismissed hw steps hno hdismissed
      · exact hfast
    · exact t.fast_kept hacquires (hbefore ▸ ih hbereft)

/-- Any run of a transport that was created. If a link that was up has ended, no consumer asked to
disconnect or to stop while it was up, and no link was established since of which the radio took up
the discovery of services, then polling is fast. This is whatever the link ended by, and whatever
was done since: scans, polls, attempts that failed, new targets, links that were dropped at once.
A link that is established with the discovery of its services taken up turns fast polling off. -/
theorem fast_since_loss {target : Option String} {radio : Logged ρ} {store : σ}
    (hw : create s target radio store = .ok w) (steps : List (Step ρ σ)) :
    (Bereft (turns steps w) → (w.runLogged steps).transport.policy.fast = true) ∧
    ∀ t ∈ turns steps w, t.acquires = true → t.after.transport.policy.fast = false := by
  have hdown : w.isUp = false := by
    obtain ⟨a, devices, -, rfl⟩ := create_eq hw
    rfl
  refine ⟨fast_of_bereft hdown steps, fun t _ ht => ?_⟩
  have hest : t.establishes = true := by
    rw [acquires, Bool.and_eq_true] at ht
    exact ht.1
  have hfast : t.after.policy.fast = !t.acquires := (fast_of_establishes hest).1
  rw [ht] at hfast
  exact hfast

/-- Four links end: the radio reports the first one down, the services of the second are not asked
for with success, those of the third cannot be discovered, and notifications are refused on the
fourth. Polling is fast after each, and stays so past a scan, a new target, a poll and an attempt
that fails. -/
theorem fast_since_each_loss :
    ∃ (w : Endpoint (Logged Radio.Simulated) Store.Memory)
      (steps : List (Step Radio.Simulated Store.Memory)),
      create {} none ⟨{}, []⟩ {} = .ok w ∧
      ((turns steps w).filter endsLink).map (fun t => t.after.transport.policy.fast) =
        [true, true, true, true] ∧
      (turns steps w).countP acquires = 3 ∧
      Bereft (turns steps w) ∧ (w.runLogged steps).transport.policy.fast = true := by
  let peer : Address := ⟨1, 2, 3, 4, 5, 6⟩
  let dial : Step Radio.Simulated Store.Memory := .act (.connect (some peer))
  let next : Step Radio.Simulated Store.Memory := .act .next
  let behave (b : Radio.Behaviour) : Step Radio.Simulated Store.Memory :=
    .radio fun r => { r with behaviour := b }
  let lost : List (Step Radio.Simulated Store.Memory) :=
    [.act .start, dial, next, next, .act (.handle .linkDown)]
  let unasked : List (Step Radio.Simulated Store.Memory) :=
    [behave { refuseDiscover := true }, dial, next, next]
  let undiscovered : List (Step Radio.Simulated Store.Memory) :=
    [behave { autoDiscover := false }, dial, next, .act (.handle (.servicesDiscovered false)), next]
  let refused : List (Step Radio.Simulated Store.Memory) :=
    [behave { acceptNotify := false }, dial, next, next]
  let meanwhile : List (Step Radio.Simulated Store.Memory) :=
    [.act .startScan, .act (.handle .scanComplete), .act (.setTarget (some "01:02:03:04:05:07")),
      behave { acceptConnects := false }, .act (.pollAt 7), dial]
  let before := lost ++ unasked ++ undiscovered ++ refused
  let w : Endpoint (Logged Radio.Simulated) Store.Memory := fresh {} none {} ⟨{}, []⟩ {}
  have hw : create {} none (⟨{}, []⟩ : Logged Radio.Simulated) ({} : Store.Memory) = .ok w := rfl
  have hbereft : Bereft (turns (before ++ next :: meanwhile) w) :=
    ⟨turns before _, _, _, turns_append .., by decide, by decide⟩
  exact ⟨w, before ++ next :: meanwhile, hw, by decide, by decide, hbereft,
    (fast_since_loss hw _).1 hbereft⟩

end Endpoint

end VehicleLink
