import VehicleLink.Proofs.OutboundStream
import VehicleLink.Proofs.Turns

/-!
# Pacing

Fragments are handed to the radio at least the configured delay apart, over the whole life of a
transport and whatever happens between them (`writes_spaced`).

An operation keeps the instant before which nothing may be sent, or hands over one fragment that is
due and puts that instant off (`Pace`). So all instants at which something was sent stay the delay
before it (`Spaced`); neither a new link nor a dropped queue changes that.
-/

namespace VehicleLink

/-- From one instant before which nothing may be sent to the next, by the fragments that are handed
over at `now`. -/
inductive Pace (delay now : Nanos) (held : Option Nanos) :
    List (List UInt8 × Bool) → Option Nanos → Prop
  | keeps : Pace delay now held [] held
  | sends (fragment : List UInt8) (accepted : Bool) (due : ∀ t, held = some t → t ≤ now) :
      Pace delay now held [(fragment, accepted)] (some (now + delay))

theorem Pace.length_le {delay now : Nanos} {held held' : Option Nanos}
    {ws : List (List UInt8 × Bool)} (h : Pace delay now held ws held') : ws.length ≤ 1 := by
  cases h with
  | keeps => exact Nat.zero_le _
  | sends => exact Nat.le_refl _

/-- Instants that are the delay apart, with each of them the delay before `held`. -/
structure Spaced (delay : Nanos) (instants : List Nanos) (held : Option Nanos) : Prop where
  apart : instants.Pairwise fun t t' => t + delay ≤ t'
  behind : ∀ t ∈ instants, ∃ t', held = some t' ∧ t + delay ≤ t'

theorem Spaced.pace {delay now : Nanos} {instants : List Nanos} {held held' : Option Nanos}
    {ws : List (List UInt8 × Bool)} (h : Spaced delay instants held)
    (hp : Pace delay now held ws held') :
    Spaced delay (instants ++ ws.map fun _ => now) held' := by
  cases hp with
  | keeps => simpa using h
  | sends fragment accepted due =>
    have hearlier : ∀ t ∈ instants, t + delay ≤ now := by
      intro t ht
      obtain ⟨t', hheld, hle⟩ := h.behind t ht
      exact Nat.le_trans hle (due t' hheld)
    refine ⟨?_, fun t ht => ⟨now + delay, rfl, ?_⟩⟩
    · rw [List.pairwise_append]
      exact ⟨h.apart, List.pairwise_singleton .., by simpa using hearlier⟩
    · rcases List.mem_append.1 ht with ht | ht
      · exact Nat.le_add_right_of_le (hearlier t ht)
      · exact (List.eq_of_mem_singleton ht).symm ▸ Nat.le_refl _

namespace Outbound

theorem le_of_isDue {o : Outbound} {now t : Nanos} (h : o.isDue now = true)
    (ht : o.notBefore = some t) : t ≤ now := by
  rw [isDue, ht] at h
  exact of_decide_eq_true h

end Outbound

namespace Endpoint

variable {ρ σ : Type}

def notBefore (w : Endpoint ρ σ) : Option Nanos := w.transport.outbound.notBefore

variable [Radio ρ] {w w' : Endpoint (Logged ρ) σ}

/-! ## The operations -/

/-- An operation that paces the fragments among the calls it makes. -/
def Paces (w w' : Endpoint (Logged ρ) σ) : Prop :=
  ∃ cs, w'.radio.log = w.radio.log ++ cs ∧
    Pace w.transport.settings.writeDelay w.now w.notBefore (writesOf cs) w'.notBefore

omit [Radio ρ] in
theorem notBefore_of {o : Outbound} (h : w.transport.outbound = o) : w.notBefore = o.notBefore :=
  congrArg Outbound.notBefore h

theorem paces_of_quiet (h : Quiet w w') (hn : w'.notBefore = w.notBefore) : Paces w w' := by
  obtain ⟨cs, hlog, hcs⟩ := h.log
  refine ⟨cs, hlog, ?_⟩
  rw [writesOf_eq_nil hcs, hn]
  exact .keeps

/-- An operation behind one that does not take time and touches nothing about fragments. -/
theorem Paces.after (u : Endpoint (Logged ρ) σ) (h : Quiet w u) (hn : u.notBefore = w.notBefore)
    (hnow : u.now = w.now) (hs : u.transport.settings = w.transport.settings) (hp : Paces u w') :
    Paces w w' := by
  obtain ⟨cs, hlog, hcs⟩ := h.log
  obtain ⟨ds, hlog', hds⟩ := hp
  refine ⟨cs ++ ds, by rw [hlog', hlog, List.append_assoc], ?_⟩
  rw [writesOf_append, writesOf_eq_nil hcs, ← hs, ← hnow, ← hn]
  exact hds

theorem paces_drained {sent : Bool} (h : Drained w sent w') : Paces w w' := by
  cases h with
  | idle => exact ⟨[], (List.append_nil _).symm, .keeps⟩
  | sent fragment queue ready next taken air now course outbound due =>
    refine ⟨_, log_of_air air, ?_⟩
    rw [notBefore_of outbound]
    exact .sends fragment _ fun t => Outbound.le_of_isDue due
  | refused fragment queue ready next refused air now course outbound due =>
    refine ⟨_, log_of_air air, ?_⟩
    rw [notBefore_of outbound]
    exact .sends fragment _ fun t => Outbound.le_of_isDue due

theorem paces_aside (h : Aside w w') : Paces w w' :=
  paces_of_quiet h.quiet (notBefore_of h.link.outbound)

theorem paces_seek [DeviceStore σ] {target : Option Address} (h : Seek target w w') :
    Paces w w' := paces_of_quiet h.quiet (notBefore_of h.traffic.outbound)

theorem paces_ended (h : Ended w w') : Paces w w' := by
  cases h with
  | none hc => exact paces_of_quiet (.of_air rfl) rfl
  | asked c hc air now setup connected outbound inbound candidates =>
    exact paces_of_quiet (.of_submit rfl air) ((notBefore_of outbound).trans rfl)

theorem paces_answered {bytes : List UInt8} {ok : Bool} (h : Answered bytes w ok w') :
    Paces w w' := by
  cases h with
  | @accepted queue h failed fits queued =>
    exact Paces.after (w.withQueue queue) (.of_air rfl) rfl rfl rfl
      (paces_drained (drained_drain _))
  | _ => exact paces_of_quiet (.of_air rfl) rfl

theorem paces_dropped {p : Address} (h : Dropped p w w') : Paces w w' :=
  paces_of_quiet (.of_submit rfl h.air) (notBefore_of h.traffic.outbound)

/-- A link that comes up has an empty queue and the pace of the one before. -/
theorem paces_linkUp (h : LinkUpDone w w') : Paces w w' := by
  have hquiet := h.quiet
  cases h with
  | unexpected => exact paces_of_quiet hquiet rfl
  | cancelled p hc traffic => exact paces_of_quiet hquiet (notBefore_of traffic.outbound)
  | @kept u p hc opened taken =>
    have hn : u.notBefore = w.notBefore := (notBefore_of opened.outbound).trans rfl
    exact paces_of_quiet hquiet hn
  | @dropped u _ p hc opened refused dropped =>
    have hn : u.notBefore = w.notBefore := (notBefore_of opened.outbound).trans rfl
    exact paces_of_quiet hquiet ((notBefore_of dropped.traffic.outbound).trans hn)

theorem paces_linkDown (h : LinkDownDone w w') : Paces w w' := by
  cases h with
  | failed p hc =>
    let v := w.gone.update (Transport.noteError (.connectFailed p))
    have ha : Attempted w.transport.candidates v _ := attempted_tryCandidates _ rfl
    exact Paces.after v (.of_air rfl) rfl rfl rfl
      (paces_of_quiet ha.quiet (notBefore_of ha.traffic.outbound))
  | _ => exact paces_of_quiet (.of_air rfl) rfl

theorem paces_discovered {success : Bool} (h : DiscoveredDone success w w') : Paces w w' := by
  have hquiet : Quiet w (w.submit (.enableNotify .notify)).2 := .submit _ rfl
  cases h with
  | ignored => exact paces_aside (.refl w)
  | ready p r hc taken =>
    exact Paces.after (w.submit (.enableNotify .notify)).2.readied (hquiet.update _) rfl rfl rfl
      (paces_drained (drained_drain _))
  | refused p r hc refused dropped =>
    exact Paces.after _ hquiet rfl rfl rfl (paces_dropped dropped)
  | failed p r hc dropped => exact paces_dropped dropped

theorem paces_completed {success : Bool} (h : CompletedDone success w w') : Paces w w' := by
  cases h with
  | unexpected => exact paces_aside (.refl w)
  | acknowledged hflight hs =>
    exact Paces.after w.acknowledged (.of_air rfl) rfl rfl rfl (paces_drained (drained_drain _))
  | failed hflight hs air now course outbound =>
    exact paces_of_quiet (.of_air air) ((notBefore_of outbound).trans rfl)

variable [DeviceStore σ]

theorem paces_act {a : Action} (ha : a.byConsumer = true) (w : Endpoint (Logged ρ) σ) :
    Paces w (w.act a) := by
  have h := acted_act ha w
  generalize w.act a = w' at h ⊢
  cases h with
  | stops hu h =>
    exact Paces.after _ ((Asks.of_air rfl).trans hu.quiet) (notBefore_of hu.link.outbound) hu.now
      hu.link.settings (paces_ended h)
  | seeks running h => exact paces_seek h
  | ends h => exact paces_ended h
  | aside h => exact paces_aside h
  | writes h => exact paces_answered h
  | drains h => exact paces_drained h
  | _ => exact paces_of_quiet (.of_air rfl) rfl

theorem paces_handle (e : Event) (w : Endpoint (Logged ρ) σ) : Paces w (w.handle e) := by
  cases e with
  | scanResult d => exact paces_aside (aside_onScanResult d w)
  | scanComplete => exact paces_aside (aside_onScanComplete w)
  | linkUp => exact paces_linkUp (linkUpDone_onLinkUp w)
  | linkDown => exact paces_linkDown (linkDownDone_onLinkDown w)
  | servicesDiscovered success => exact paces_discovered (discoveredDone_onServicesDiscovered _ w)
  | writeComplete success => exact paces_completed (completedDone_onWriteComplete success w)
  | received bytes =>
    obtain ⟨inbound, heq⟩ := onReceived_eq bytes w
    rw [Endpoint.handle, heq]
    exact paces_of_quiet (.of_air rfl) rfl

end Endpoint

/-! ## Turns -/

namespace Turn

open Endpoint

variable {ρ σ : Type} [Radio ρ] [DeviceStore σ] {t : Turn ρ σ}

/-- The instants at which the step handed a fragment to the radio, taken or not. -/
def instants (t : Turn ρ σ) : List Nanos := t.writes.map fun _ => t.before.now

theorem paces (t : Turn ρ σ) : Paces t.before t.after := by
  cases t.kind with
  | still idle event transport log =>
    have hn : t.after.notBefore = t.before.notBefore := by rw [notBefore, transport]; rfl
    exact ⟨[], by simp [log], hn ▸ .keeps⟩
  | acts a ha hstep =>
    rw [after_of_step hstep]
    exact paces_act ha _
  | handles e w idle event transport radio after now =>
    obtain ⟨cs, hlog, hpace⟩ := paces_handle e w
    refine ⟨cs, by rw [after, hlog, radio], ?_⟩
    rw [after, Endpoint.notBefore, ← transport, ← now]
    exact hpace

theorem spaced {delay : Nanos} {instants : List Nanos}
    (h : Spaced delay instants t.before.notBefore)
    (hdelay : t.before.transport.settings.writeDelay = delay) :
    Spaced delay (instants ++ t.instants) t.after.notBefore := by
  obtain ⟨cs, hlog, hpace⟩ := t.paces
  rw [hdelay] at hpace
  rw [Turn.instants, writes, calls_of_log hlog]
  exact h.pace hpace

end Turn

namespace Endpoint

variable {ρ σ : Type} [Radio ρ] [DeviceStore σ] {s : LinkSettings} {w : Endpoint (Logged ρ) σ}

open Turn

/-! ## Runs -/

theorem spaced_run (hs : Sound s w.transport) (steps : List (Step ρ σ)) :
    Spaced s.writeDelay ((turns steps w).flatMap instants) (w.runLogged steps).notBefore := by
  induction steps using List.reverseRecOn with
  | nil => exact ⟨List.Pairwise.nil, by simp [turns]⟩
  | append_singleton steps st ih =>
    obtain ⟨t, hturns, -, hbefore, hafter⟩ := exists_last_turn steps st w
    have hsettings : t.before.transport.settings = s := by
      rw [hbefore]
      exact (sound_runLogged hs steps).settings
    rw [hturns, List.flatMap_append, List.flatMap_singleton, ← hafter]
    exact Turn.spaced (hbefore ▸ ih) (congrArg _ hsettings)

/-- The fragments of any run of a transport that was created, whether the radio took them or not.
The instants at which two of them are handed over are at least the delay apart, whatever the steps
between them are: writes, reports, links that end and come up, drains. One drain hands over at most
one fragment, from any state and with any radio. -/
theorem writes_spaced {target : Option String} {radio : Logged ρ} {store : σ}
    (hw : create s target radio store = .ok w) (steps : List (Step ρ σ)) :
    ((turns steps w).flatMap instants).Pairwise (fun t t' => t + s.writeDelay ≤ t') ∧
    (∀ u : Endpoint (Logged ρ) σ, ∃ cs, u.drain.2.radio.log = u.radio.log ++ cs ∧
      (writesOf cs).length ≤ 1) := by
  refine ⟨(spaced_run (sound_create hw) steps).apart, fun u => ?_⟩
  obtain ⟨cs, hlog, hpace⟩ := paces_drained (drained_drain u)
  exact ⟨cs, hlog, hpace.length_le⟩

/-- Three fragments of one link and one of the next. The third is due before it is drained, and the
fourth is held back by the link before. -/
theorem writes_spaced_across_links :
    ∃ (w : Endpoint (Logged Radio.Simulated) Store.Memory)
      (steps : List (Step Radio.Simulated Store.Memory)),
      create { maxFragment := 2, writeDelay := 5 } none ⟨{}, []⟩ {} = .ok w ∧
      (turns steps w).flatMap sent = [[1, 2], [3, 4], [5], [6]] ∧
      (turns steps w).flatMap instants = [0, 5, 12, 17] ∧
      ((turns steps w).flatMap instants).Pairwise fun t t' => t + 5 ≤ t' := by
  let settings : LinkSettings := { maxFragment := 2, writeDelay := 5 }
  let radio : Logged Radio.Simulated := ⟨{}, []⟩
  let dial : List (Step Radio.Simulated Store.Memory) :=
    [.act (.connect (some ⟨1, 2, 3, 4, 5, 6⟩)), .act .next, .act .next]
  let steps : List (Step Radio.Simulated Store.Memory) :=
    .act .start :: dial ++
      [.act (.write [1, 2, 3, 4, 5]), .act .next, .act (.wait 5), .act .drainDue, .act .next,
        .act (.wait 7), .act .drainDue, .act .disconnect, .act .next, .act .next] ++
      dial ++ [.act (.write [6]), .act (.wait 5), .act .drainDue]
  have hw : create settings none radio ({} : Store.Memory) = .ok _ := rfl
  exact ⟨_, steps, hw, by decide, by decide, (writes_spaced hw steps).1⟩

end Endpoint

end VehicleLink
