import VehicleLink.Proofs.History
import VehicleLink.Radio.Simulated

/-!
# The order of the calls

The calls of any run come in the order in which a radio can serve them (`calls_in_order`): an
attempt only while there is none, the discovery of services once for each link, notifications only
on a link of which the services were discovered, fragments only behind all of these, and each
fragment only after the report on the one before.
-/

namespace VehicleLink

namespace Entry

theorem notified_splits {h : List Entry} (hn : Notified h) :
    ∃ (first dialed discovered notified : List Entry) (a : Address) (k : Characteristic),
      h = first ++ .called (.connect a) true :: dialed ++ .called .discover true :: discovered ++
        .called (.enableNotify k) true :: notified ∧
      ∀ x ∈ dialed ++ discovered ++ notified, x.breaksOff = false := by
  obtain ⟨_, _, notified, rfl, ⟨hdiscovered, k, rfl⟩, h₃⟩ := hn
  obtain ⟨_, _, discovered, rfl, ⟨hdialed, rfl⟩, h₂⟩ := hdiscovered
  obtain ⟨first, _, dialed, rfl, ⟨a, rfl⟩, h₁⟩ := hdialed
  refine ⟨first, dialed, discovered, notified, a, k, rfl, fun x hx => ?_⟩
  rcases List.mem_append.1 hx with hx | hx
  · exact (List.mem_append.1 hx).elim (h₁ x) (h₂ x)
  · exact h₃ x hx

/-- Between two fragments that were taken there is a report on a fragment or another attempt. -/
theorem Lawful.answered {h before between after : List Entry} {k k' : Characteristic}
    {fragment fragment' : List UInt8} (hl : Lawful h)
    (hsplit : h = before ++ .called (.write k fragment) true :: between ++
      .called (.write k' fragment') true :: after)
    (hconnect : ∀ a accepted, .called (.connect a) accepted ∉ between) :
    ∃ success, .handled (.writeComplete success) ∈ between := by
  obtain ⟨-, hanswered⟩ := hl _ _ _ hsplit
  by_contra hnone
  refine hanswered rfl ⟨before, _, between, rfl, ⟨k, fragment, rfl⟩, fun x hx => ?_⟩
  refine eq_false_of_ne_true fun hsettles => ?_
  unfold settles at hsettles
  split at hsettles
  · exact hconnect _ _ hx
  · exact hnone ⟨_, hx⟩
  · cases hsettles

end Entry

namespace Endpoint

variable {ρ σ : Type} [Radio ρ] {p : Address} {w u w' : Endpoint (Logged ρ) σ}

/-- The calls between two logs, of which one asks for the services. -/
def AsksOnce (w w' : Endpoint (Logged ρ) σ) : Prop :=
  ∃ cs, w'.radio.log = w.radio.log ++ cs ∧ cs.countP (fun c => c.1 = .discover) = 1

theorem Opened.asksOnce (ho : Opened p w u) : AsksOnce w (u.submit .discover).2 := by
  obtain ⟨cs, hlog, hcs⟩ := ho.asks.log
  have hnone : cs.countP (fun c => c.1 = .discover) = 0 := by
    rw [List.countP_eq_zero]
    rintro ⟨c, accepted⟩ hc hdiscover
    obtain rfl : c = .discover := by simpa using hdiscover
    have hscan : Call.isScan .discover = true := hcs _ hc
    cases hscan
  refine ⟨cs ++ [(.discover, (u.submit .discover).1)], ?_, by simp [hnone]⟩
  rw [← List.append_assoc, ← hlog]
  rfl

theorem LinkUpDone.asksOnce (hc : w.transport.connection = .connecting p false)
    (h : LinkUpDone w w') : AsksOnce w w' := by
  cases h with
  | unexpected h => simp [hc, Connection.isConnecting] at h
  | cancelled q h => simp [hc] at h
  | kept q h opened taken => exact opened.asksOnce
  | dropped q h opened refused dropped =>
    obtain ⟨cs, hlog, hone⟩ := opened.asksOnce
    exact ⟨cs ++ [_], by rw [log_of_air dropped.air, hlog, List.append_assoc], by simp [hone]⟩

end Endpoint

namespace Turn

open Endpoint

variable {ρ σ : Type} [Radio ρ] [DeviceStore σ]

/-- The services of a link are asked for once, in the turn that establishes it. -/
theorem countP_discover (t : Turn ρ σ) :
    t.calls.countP (fun c => c.1 = .discover) = if t.establishes then 1 else 0 := by
  split
  · rename_i hest
    obtain ⟨hevent, p, hp⟩ := establishes_iff.1 hest
    obtain ⟨w, transport, radio, after, -⟩ := handles_of_event hevent
    obtain ⟨cs, hlog, hone⟩ := (linkUpDone_onLinkUp w).asksOnce (transport ▸ hp)
    have hcalls : t.after.radio.log = t.before.radio.log ++ cs := by
      rw [after, ← radio]
      exact hlog
    rw [calls_of_log hcalls, hone]
  · rename_i hest
    rw [List.countP_eq_zero]
    rintro ⟨c, accepted⟩ hc hdiscover
    obtain rfl : c = .discover := by simpa using hdiscover
    have hwarrant := t.warranted _ hc
    generalize hevent : t.event? = e at hwarrant
    cases hwarrant with
    | scan h => cases h
    | discover p hp => exact hest (establishes_iff.2 ⟨hevent, p, hp⟩)

end Turn

namespace Endpoint

variable {ρ σ : Type} [Radio ρ] [DeviceStore σ] {s : LinkSettings} {w : Endpoint (Logged ρ) σ}

open Entry

/-- The calls of any run of a transport that was created. The log and the connection are those of
the history, so the connection at each call is the replay of what was before it. Attempts are made
without a link or an attempt under way, which a report that the link is down may have just ended;
each link has its services asked for once, when it is established; notifications are enabled on the
report of these, on a link that is wanted. A fragment is handed over only behind an attempt that was
taken up, the discovery of the services and the enabling of notifications, none of them broken off,
and behind the report on the fragment before it. -/
theorem calls_in_order {target : Option String} {radio : Logged ρ} {store : σ}
    (hw : create s target radio store = .ok w) (steps : List (Step ρ σ)) :
    let h := history steps w
    let u := w.runLogged steps
    u.radio.log = radio.log ++ h.filterMap Entry.call? ∧
    u.transport.connection = Connection.replay h ∧
    (∀ (before : List Entry) a accepted after, h = before ++ .called (.connect a) accepted :: after →
      Connection.replay before = .disconnected) ∧
    (∀ t ∈ turns steps w, ∀ a accepted, (.connect a, accepted) ∈ t.calls →
      t.before.transport.connection = .disconnected ∨
        t.event? = some .linkDown ∧ ∃ p, t.before.transport.connection = .connecting p false) ∧
    (∀ t ∈ turns steps w,
      t.calls.countP (fun c => c.1 = .discover) = if t.establishes then 1 else 0) ∧
    (∀ t ∈ turns steps w, ∀ k accepted, (.enableNotify k, accepted) ∈ t.calls →
      t.event? = some (.servicesDiscovered true) ∧
        ∃ p ready, t.before.transport.connection = .connected p ready false) ∧
    (∀ (before : List Entry) k fragment accepted after,
      h = before ++ .called (.write k fragment) accepted :: after →
      ∃ (first dialed discovered notified : List Entry) (a : Address) (k' : Characteristic),
        before = first ++ .called (.connect a) true :: dialed ++
          .called .discover true :: discovered ++ .called (.enableNotify k') true :: notified ∧
        ∀ x ∈ dialed ++ discovered ++ notified, x.breaksOff = false) ∧
    (∀ (before : List Entry) k fragment (between : List Entry) k' fragment' after,
      h = before ++ .called (.write k fragment) true :: between ++
        .called (.write k' fragment') true :: after →
      (∀ a accepted, .called (.connect a) accepted ∉ between) →
      ∃ success, .handled (.writeComplete success) ∈ between) := by
  intro h u
  have hrecorded : Recorded h u.transport := recorded_run (recorded_create hw) steps
  have hlawful : Lawful h := hrecorded.tracked.lawful
  have hlog : w.radio.log = radio.log := by
    obtain ⟨a, devices, -, rfl⟩ := create_eq hw
    rfl
  refine ⟨hlog ▸ log_run steps w, hrecorded.tracked.connection.symm, ?_, ?_, ?_, ?_, ?_, ?_⟩
  · intro before a accepted after hsplit
    exact hlawful _ _ _ hsplit
  · intro t _ a accepted hc
    have hwarrant := t.warranted _ hc
    generalize t.event? = e at hwarrant ⊢
    cases hwarrant with
    | scan h => cases h
    | connect a running hp => exact .inl hp
    | fallback a p hp => exact .inr ⟨rfl, p, hp⟩
  · exact fun t _ => t.countP_discover
  · intro t _ k accepted hc
    have hwarrant := t.warranted _ hc
    generalize t.event? = e at hwarrant ⊢
    cases hwarrant with
    | scan h => cases h
    | notify k p ready hp => exact ⟨rfl, p, ready, hp⟩
  · intro before k fragment accepted after hsplit
    exact notified_splits (hlawful _ _ _ hsplit).1
  · intro before k fragment between k' fragment' after hsplit hconnect
    exact hlawful.answered hsplit hconnect

/-- Three bytes in fragments of two: the second fragment waits for the report on the first. -/
theorem calls_in_order_of_two_fragments :
    ∃ (w : Endpoint (Logged Radio.Simulated) Store.Memory)
      (steps : List (Step Radio.Simulated Store.Memory)) (before : List Entry),
      create { maxFragment := 2, writeDelay := 0 } none ⟨{}, []⟩ {} = .ok w ∧
      history steps w = before ++ .called (.write .write [1, 2]) true ::
        [.handled (.writeComplete true)] ++ .called (.write .write [3]) true :: [] ∧
      (w.runLogged steps).radio.log = (history steps w).filterMap Entry.call? ∧
      ∃ success, .handled (.writeComplete success) ∈ [Entry.handled (.writeComplete true)] := by
  let settings : LinkSettings := { maxFragment := 2, writeDelay := 0 }
  let radio : Logged Radio.Simulated := ⟨{}, []⟩
  let steps : List (Step Radio.Simulated Store.Memory) :=
    [.act .start, .act (.connect (some ⟨1, 2, 3, 4, 5, 6⟩)), .act .next, .act .next,
      .act (.write [1, 2, 3]), .act .next]
  let before : List Entry :=
    [.called (.connect ⟨1, 2, 3, 4, 5, 6⟩) true, .handled .linkUp, .called .discover true,
      .handled (.servicesDiscovered true), .called (.enableNotify .notify) true]
  have hw : create settings none radio ({} : Store.Memory) = .ok _ := rfl
  obtain ⟨hlog, -, -, -, -, -, -, hanswered⟩ := calls_in_order hw steps
  refine ⟨_, steps, before, hw, by decide, hlog, ?_⟩
  exact hanswered before .write [1, 2] _ .write [3] [] (by decide) (by simp)

end Endpoint

end VehicleLink
