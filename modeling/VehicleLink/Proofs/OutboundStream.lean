import VehicleLink.Proofs.Sound
import VehicleLink.Radio.Simulated
import Mathlib.Data.List.Basic
import Mathlib.Data.List.Induction

/-!
# The outbound stream

What is accepted for writing on a link leaves as fragments in order, is dropped for a reason that
shows, or is still queued; nothing is repeated, swapped or carried over to the next link.

One step does one of four things to the queue (`Outflow`): it keeps it, it hands its front to the
radio as a fragment, it loses the rest with a fragment that was turned away, or it drops it. The
sums over the steps since the link was established are the result (`stream_splits`).
-/

namespace VehicleLink

/-! ## What one step does to the queue -/

/-- The fragments among some calls, each with whether the radio took it. -/
def writesOf (calls : List (Call × Bool)) : List (List UInt8 × Bool) :=
  calls.filterMap fun c =>
    match c.1 with
    | .write _ fragment => some (fragment, c.2)
    | _ => none

theorem writesOf_append (cs ds : List (Call × Bool)) :
    writesOf (cs ++ ds) = writesOf cs ++ writesOf ds := List.filterMap_append ..

theorem writesOf_eq_nil {cs : List (Call × Bool)} (h : ∀ c ∈ cs, c.1.isWrite = false) :
    writesOf cs = [] := by
  unfold writesOf
  rw [List.filterMap_eq_nil_iff]
  rintro ⟨c, ok⟩ hc
  have := h _ hc
  cases c with
  | write k fragment => cases this
  | _ => rfl

/-- From the queued bytes `q`, by the fragments that were handed to the radio, to what is queued
then; `cut` says that there is a reason to drop the queue. -/
inductive Outflow (limit : Nat) (cut : Prop) (q : List UInt8) :
    List (List UInt8 × Bool) → List UInt8 → Prop
  | kept : Outflow limit cut q [] q
  | sent (h : q ≠ []) : Outflow limit cut q [(q.take limit, true)] (q.drop limit)
  | turnedAway (h : q ≠ []) : Outflow limit cut q [(q.take limit, false)] []
  | dropped (h : cut) : Outflow limit cut q [] []

theorem Outflow.mono {limit : Nat} {cut cut' : Prop} {q q' : List UInt8}
    {ws : List (List UInt8 × Bool)} (h : Outflow limit cut q ws q') (hc : cut → cut') :
    Outflow limit cut' q ws q' := by
  cases h with
  | kept => exact .kept
  | sent h => exact .sent h
  | turnedAway h => exact .turnedAway h
  | dropped h => exact .dropped (hc h)

namespace Endpoint

variable {ρ σ : Type} [Radio ρ] {cut : Prop} {s : LinkSettings} {w w' : Endpoint (Logged ρ) σ}

def outgoing {ρ : Type} (w : Endpoint ρ σ) : List UInt8 := w.transport.outbound.queue.bytes

def limit {ρ : Type} (w : Endpoint ρ σ) : Nat := w.transport.outbound.queue.limit

/-- An operation that made the calls between two logs, with what it did to the queue. -/
def Flows (cut : Prop) (w w' : Endpoint (Logged ρ) σ) : Prop :=
  ∃ cs, w'.radio.log = w.radio.log ++ cs ∧ Outflow w.limit cut w.outgoing (writesOf cs) w'.outgoing

omit [Radio ρ] in
theorem outgoing_of {o : Outbound} (h : w.transport.outbound = o) : w.outgoing = o.queue.bytes :=
  congrArg (fun o : Outbound => o.queue.bytes) h

omit [Radio ρ] in
theorem limit_of {o : Outbound} (h : w.transport.outbound = o) : w.limit = o.queue.limit :=
  congrArg (fun o : Outbound => o.queue.limit) h

/-! ## The operations -/

def Quiet (w w' : Endpoint (Logged ρ) σ) : Prop := Asks (fun c => c.isWrite = false) w w'

theorem Quiet.writesOf {cs : List (Call × Bool)} (h : ∀ c ∈ cs, c.1.isWrite = false)
    {q q' : List UInt8} {n : Nat} (hq : Outflow n cut q [] q') :
    Outflow n cut q (writesOf cs) q' := by
  rw [writesOf_eq_nil h]
  exact hq

theorem flows_of_quiet (h : Quiet w w') (hq : w'.outgoing = w.outgoing) : Flows cut w w' := by
  obtain ⟨cs, hlog, hcs⟩ := h.log
  refine ⟨cs, hlog, Quiet.writesOf hcs ?_⟩
  rw [hq]
  exact .kept

theorem flows_of_cut (h : Quiet w w') (hcut : cut) (hq : w'.outgoing = []) : Flows cut w w' := by
  obtain ⟨cs, hlog, hcs⟩ := h.log
  refine ⟨cs, hlog, Quiet.writesOf hcs ?_⟩
  rw [hq]
  exact .dropped hcut

theorem Flows.after (u : Endpoint (Logged ρ) σ) (h : Quiet w u) (hq : u.outgoing = w.outgoing)
    (hl : u.limit = w.limit) (hf : Flows cut u w') : Flows cut w w' := by
  obtain ⟨cs, hlog, hcs⟩ := h.log
  obtain ⟨ds, hlog', hds⟩ := hf
  refine ⟨cs ++ ds, by rw [hlog', hlog, List.append_assoc], ?_⟩
  rw [writesOf_append, writesOf_eq_nil hcs, ← hq, ← hl]
  exact hds

theorem not_write_of_scan (c : Call) (h : c.isScan = true) : c.isWrite = false := by
  cases c <;> first | rfl | cases h

theorem Aside.quiet (h : Aside w w') : Quiet w w' := h.asks.mono not_write_of_scan

theorem Attempted.quiet {cs : List Candidate} (h : Attempted cs w w') : Quiet w w' :=
  h.asks.mono fun _ ⟨_, _, hc⟩ => by rw [hc]; rfl

theorem Seek.quiet [DeviceStore σ] {target : Option Address} (h : Seek target w w') :
    Quiet w w' := by
  cases h with
  | idle ha => exact ha.quiet
  | tries cs hw hu hcs =>
    have ha := attempted_tryCandidates cs (hu.link.connection.trans hw)
    exact ((Asks.of_air rfl).trans hu.quiet).trans ha.quiet

theorem LinkUpDone.quiet (h : LinkUpDone w w') : Quiet w w' := by
  cases h with
  | unexpected => exact .of_air rfl
  | cancelled p hc traffic connection candidates air now => exact .of_submit rfl air
  | kept p hc opened taken => exact (opened.asks.mono not_write_of_scan).trans (.submit _ rfl)
  | @dropped u _ p hc opened refused dropped =>
    have hasked : Quiet w (u.submit .discover).2 :=
      (opened.asks.mono not_write_of_scan).trans (.submit _ rfl)
    exact hasked.trans (.of_submit rfl dropped.air)

theorem flows_aside (h : Aside w w') : Flows cut w w' :=
  flows_of_quiet h.quiet (outgoing_of h.link.outbound)

theorem flows_drained {sent : Bool} (h : Drained w sent w') : Flows cut w w' := by
  cases h with
  | idle => exact ⟨[], (List.append_nil _).symm, .kept⟩
  | sent fragment queue ready next taken air now course outbound =>
    obtain ⟨-, hne, rfl, rfl⟩ := FragmentQueue.next?_eq_some next
    refine ⟨_, log_of_air air, ?_⟩
    rw [taken, outgoing_of outbound]
    exact .sent hne
  | refused fragment queue ready next refused air now course outbound =>
    obtain ⟨-, hne, rfl, rfl⟩ := FragmentQueue.next?_eq_some next
    refine ⟨_, log_of_air air, ?_⟩
    rw [refused, outgoing_of outbound]
    exact .turnedAway hne

theorem flows_seek [DeviceStore σ] {target : Option Address} (h : Seek target w w') :
    Flows cut w w' := flows_of_quiet h.quiet (outgoing_of h.traffic.outbound)

theorem flows_ended (hcut : cut) (h : Ended w w') : Flows cut w w' := by
  cases h with
  | none => exact flows_of_quiet (.of_air rfl) rfl
  | asked c hc air now setup connected outbound inbound candidates =>
    exact flows_of_cut (.of_submit rfl air) hcut (outgoing_of outbound)

theorem flows_stop (hcut : cut) (w : Endpoint (Logged ρ) σ) : Flows cut w w.stop := by
  rcases stop_cases w with heq | ⟨u, hu, heq⟩
  · rw [heq]
    exact flows_aside (.refl w)
  · rw [heq]
    exact Flows.after u ((Asks.of_air rfl).trans hu.quiet) (outgoing_of hu.link.outbound)
      (limit_of hu.link.outbound) (flows_ended hcut (ended_disconnect u))

theorem flows_dropped {p : Address} (h : Dropped p w w') : Flows cut w w' :=
  flows_of_quiet (.of_submit rfl h.air) (outgoing_of h.traffic.outbound)

/-- Nothing is queued before a link is up, so nothing is lost when it comes up. -/
theorem flows_linkUp (hs : Sound s w.transport) (h : LinkUpDone w w') : Flows cut w w' := by
  have hopen {p : Address} {u : Endpoint (Logged ρ) σ}
      (hc : w.transport.connection = .connecting p false) (ho : Opened p w u) :
      u.outgoing = w.outgoing := by
    rw [outgoing_of ho.outbound]
    exact (hs.unqueued (by rw [hc]; rfl)).symm
  refine flows_of_quiet h.quiet ?_
  cases h with
  | unexpected => rfl
  | cancelled p hc traffic => exact outgoing_of traffic.outbound
  | @kept u p hc opened taken =>
    have hu : u.outgoing = w.outgoing := hopen hc opened
    exact hu
  | @dropped u _ p hc opened refused dropped =>
    have hu : u.outgoing = w.outgoing := hopen hc opened
    exact (outgoing_of dropped.traffic.outbound).trans hu

/-- The queue is dropped with a link that goes down; without one nothing is queued. -/
theorem flows_linkDown (hs : Sound s w.transport) (h : LinkDownDone w w')
    (hcut : w.transport.connection.isConnected = true →
      w'.transport.connection.isConnected = false → cut) : Flows cut w w' := by
  have hnone (hc : w.transport.connection.isConnected = false) : [] = w.outgoing :=
    (hs.unqueued hc).symm
  cases h with
  | ignored => exact flows_aside (.refl w)
  | failed p hc =>
    let v := w.gone.update (Transport.noteError (.connectFailed p))
    have ha : Attempted w.transport.candidates v _ := attempted_tryCandidates _ rfl
    exact Flows.after v (.of_air rfl) (hnone (by rw [hc]; rfl)) rfl
      (flows_of_quiet ha.quiet (outgoing_of ha.traffic.outbound))
  | cancelled p hc => exact flows_of_quiet (.of_air rfl) (hnone (by rw [hc]; rfl))
  | lost p ready hc => exact flows_of_cut (.of_air rfl) (hcut (by rw [hc]; rfl) rfl) rfl
  | closed p ready hc => exact flows_of_cut (.of_air rfl) (hcut (by rw [hc]; rfl) rfl) rfl

theorem flows_discovered {success : Bool} (h : DiscoveredDone success w w') : Flows cut w w' := by
  have hquiet : Quiet w (w.submit (.enableNotify .notify)).2 := .submit _ rfl
  cases h with
  | ignored => exact flows_aside (.refl w)
  | ready p r hc taken =>
    exact Flows.after (w.submit (.enableNotify .notify)).2.readied (hquiet.update _) rfl rfl
      (flows_drained (drained_drain _))
  | refused p r hc refused dropped =>
    exact Flows.after _ hquiet rfl rfl (flows_dropped dropped)
  | failed p r hc dropped => exact flows_dropped dropped

theorem flows_completed {success : Bool} (h : CompletedDone success w w')
    (hcut : success = false → cut) : Flows cut w w' := by
  cases h with
  | unexpected => exact flows_aside (.refl w)
  | acknowledged hflight hs =>
    exact Flows.after w.acknowledged (.of_air rfl) rfl rfl
      (flows_drained (drained_drain w.acknowledged))
  | failed hflight hs air now course outbound =>
    exact flows_of_cut (.of_air air) (hcut hs) (outgoing_of outbound)

/-- A write flows from the queue with the bytes that it accepted. -/
theorem flows_written (cut : Prop) {bytes : List UInt8} {ok : Bool} (h : Written bytes w ok w') :
    ∃ cs, w'.radio.log = w.radio.log ++ cs ∧
      Outflow w.limit cut (w.outgoing ++ if ok then bytes else []) (writesOf cs) w'.outgoing := by
  cases h with
  | refused air now course queue notBefore =>
    refine ⟨[], ?_, ?_⟩
    · rw [List.append_nil]
      exact congrArg (fun x => Logged.log x.1) air
    · have hq : w'.outgoing = w.outgoing := congrArg FragmentQueue.bytes queue
      rw [if_neg Bool.false_ne_true, List.append_nil, hq]
      exact .kept
  | @accepted queue connected fits queued =>
    subst queued
    exact flows_drained (drained_drain _)

theorem flows_handle [DeviceStore σ] (hs : Sound s w.transport) (e : Event)
    (hfailed : e = .writeComplete false → cut)
    (hdown : w.transport.connection.isConnected = true →
      (w.handle e).transport.connection.isConnected = false → cut) : Flows cut w (w.handle e) := by
  cases e with
  | scanResult d => exact flows_aside (aside_onScanResult d w)
  | scanComplete => exact flows_aside (aside_onScanComplete w)
  | linkUp => exact flows_linkUp hs (linkUpDone_onLinkUp w)
  | linkDown => exact flows_linkDown hs (linkDownDone_onLinkDown w) hdown
  | servicesDiscovered success => exact flows_discovered (discoveredDone_onServicesDiscovered _ w)
  | writeComplete success =>
    refine flows_completed (completedDone_onWriteComplete success w) fun hsuccess => hfailed ?_
    rw [hsuccess]
  | received fragment =>
    obtain ⟨inbound, heq⟩ := onReceived_eq fragment w
    rw [Endpoint.handle, heq]
    exact flows_of_quiet (.of_air rfl) rfl

end Endpoint

/-! ## Turns -/

namespace Turn

variable {ρ σ : Type} [Radio ρ] [DeviceStore σ] {s : LinkSettings} {t : Turn ρ σ}

/-- The bytes that the step accepted for writing. -/
def accepted (t : Turn ρ σ) : List UInt8 :=
  match t.step with
  | .act (.write bytes) => if (t.before.write bytes).1 then bytes else []
  | _ => []

/-- The bytes that are queued when a fragment is cut. -/
def offered (t : Turn ρ σ) : List UInt8 := t.before.outgoing ++ t.accepted

def writes (t : Turn ρ σ) : List (List UInt8 × Bool) := writesOf t.calls

def sent (t : Turn ρ σ) : List (List UInt8) := t.writes.map Prod.fst

/-- The bytes behind those sent that are not queued any more. -/
def lost (t : Turn ρ σ) : List UInt8 :=
  let behind := t.offered.drop t.sent.flatten.length
  behind.take (behind.length - t.after.outgoing.length)

/-- The step ends the link, or reports it or a fragment as lost. -/
inductive Cuts (t : Turn ρ σ) : Prop
  | disconnect (h : t.step = .act .disconnect)
  | stop (h : t.step = .act .stop)
  | failed (h : t.event? = some (.writeComplete false))
  | down (h : t.before.transport.connection.isConnected = true)
      (h' : t.after.transport.connection.isConnected = false)

/-- There is a reason for the step to discard what is queued. -/
inductive Discards (t : Turn ρ σ) : Prop
  | cut (h : t.Cuts)
  | refused (fragment : List UInt8) (h : (fragment, false) ∈ t.writes)

open Endpoint

theorem outflow_of_flows {cut : Prop} (h : Flows cut t.before t.after) :
    Outflow t.before.limit cut t.before.outgoing t.writes t.after.outgoing := by
  obtain ⟨cs, hlog, hcs⟩ := h
  have hcalls : t.calls = cs := by
    unfold calls
    rw [hlog, List.drop_left]
  rw [writes, hcalls]
  exact hcs

theorem flows_of_event {e : Event} {w : Endpoint (Logged ρ) σ} (hs : Sound s w.transport)
    (hw : t.before.radio = w.radio ∧ t.before.transport = w.transport)
    (ha : t.after = w.handle e) (he : t.event? = some e) : Flows t.Cuts t.before t.after := by
  have h : Flows t.Cuts w (w.handle e) := by
    refine flows_handle hs e (fun hf => .failed (by rw [he, hf])) fun hup hdown => ?_
    refine .down (by rw [hw.2]; exact hup) (by rw [ha]; exact hdown)
  obtain ⟨cs, hlog, hflow⟩ := h
  rw [ha]
  refine ⟨cs, by rw [hlog, hw.1], ?_⟩
  rw [limit, outgoing, hw.2]
  exact hflow

theorem flows (hs : Sound s t.before.transport) (hw : ∀ bytes, t.step ≠ .act (.write bytes)) :
    Flows t.Cuts t.before t.after := by
  obtain ⟨w, st⟩ := t
  cases st with
  | radio f =>
    exact ⟨[], (List.append_nil _).symm, .kept⟩
  | store f =>
    exact ⟨[], (List.append_nil _).symm, .kept⟩
  | act a =>
    have quiet (hlog : (w.act a).radio = w.radio) (hq : (w.act a).outgoing = w.outgoing) :
        Flows (Turn.Cuts ⟨w, .act a⟩) w (w.act a) := by
      refine ⟨[], by rw [hlog, List.append_nil], ?_⟩
      rw [hq]
      exact .kept
    cases a with
    | write bytes => exact absurd rfl (hw bytes)
    | start => exact quiet rfl rfl
    | stop =>
      exact flows_stop (.stop rfl) w
    | connect target =>
      exact flows_seek (seek_connect target w)
    | disconnect =>
      exact flows_ended (.disconnect rfl) (ended_disconnect w)
    | pollAt instant =>
      exact flows_seek (seek_pollAt instant w)
    | startScan =>
      exact flows_aside (aside_beginScan w)
    | read n =>
      obtain ⟨inbound, heq⟩ := read_eq n w
      exact quiet (by rw [act, heq]; rfl) (by rw [act, heq]; rfl)
    | setTarget target =>
      obtain ⟨policy, heq⟩ := setTarget_eq target w
      exact quiet (by rw [act, heq]; rfl) (by rw [act, heq]; rfl)
    | drainDue =>
      exact flows_drained (drained_drain w)
    | handle e =>
      exact flows_of_event hs ⟨rfl, rfl⟩ rfl rfl
    | next =>
      cases hinbox : w.inbox with
      | nil =>
        have hw : w.act .next = w := handleNext_nil hinbox
        exact quiet (by rw [hw]) (by rw [hw])
      | cons e rest =>
        have hw : w.act .next = ({ w with inbox := rest }).handle e := handleNext_cons hinbox
        have he : Turn.event? ⟨w, .act .next⟩ = some e := by
          show w.inbox.head? = some e
          rw [hinbox]
          rfl
        exact flows_of_event (w := { w with inbox := rest }) hs ⟨rfl, rfl⟩ hw he
    | raise e => exact quiet rfl rfl
    | wait d => exact quiet rfl rfl

omit [DeviceStore σ] in
theorem accepted_of_no_write (h : ∀ bytes, t.step ≠ .act (.write bytes)) : t.accepted = [] := by
  unfold accepted
  split
  · rename_i bytes hw
    exact absurd hw (h bytes)
  · rfl

/-- One step does one of four things to the queue. -/
theorem outflow (hs : Sound s t.before.transport) :
    Outflow t.before.limit t.Cuts t.offered t.writes t.after.outgoing := by
  by_cases hwrite : ∃ bytes, t.step = .act (.write bytes)
  · obtain ⟨w, st⟩ := t
    obtain ⟨bytes, rfl⟩ := hwrite
    obtain ⟨cs, hlog, hcs⟩ := flows_written (Turn.Cuts ⟨w, .act (.write bytes)⟩)
      (written_write bytes w)
    have hcalls : Turn.calls ⟨w, .act (.write bytes)⟩ = cs := by
      show List.drop _ (w.write bytes).2.radio.log = cs
      rw [hlog, List.drop_left]
    rw [writes, hcalls]
    exact hcs
  · have hnone : t.accepted = [] := accepted_of_no_write fun bytes h => hwrite ⟨bytes, h⟩
    rw [offered, hnone, List.append_nil]
    exact outflow_of_flows (flows hs fun bytes h => hwrite ⟨bytes, h⟩)

/-- What is offered is sent, lost or still queued, in this order. -/
theorem offered_splits (hs : Sound s t.before.transport) :
    t.offered = t.sent.flatten ++ t.lost ++ t.after.outgoing ∧ (t.lost ≠ [] → t.Discards) := by
  have key : ∃ l, t.offered = t.sent.flatten ++ l ++ t.after.outgoing ∧ (l ≠ [] → t.Discards) := by
    have h := outflow hs
    unfold sent
    generalize hq : t.after.outgoing = q at h ⊢
    generalize hws : t.writes = ws at h ⊢
    cases h with
    | kept => exact ⟨[], rfl, fun hne => absurd rfl hne⟩
    | sent hne =>
      refine ⟨[], ?_, fun hne => absurd rfl hne⟩
      simp
    | turnedAway hne =>
      refine ⟨t.offered.drop t.before.limit, ?_, fun _ => ?_⟩
      · simp
      · exact .refused _ (by rw [hws]; exact List.mem_singleton_self _)
    | dropped hcut => exact ⟨t.offered, by simp, fun _ => .cut hcut⟩
  obtain ⟨l, heq, hl⟩ := key
  have hlost : t.lost = l := by
    unfold lost
    dsimp only
    rw [heq, List.append_assoc, List.drop_left, List.length_append, Nat.add_sub_cancel,
      List.take_left]
  rw [hlost]
  exact ⟨heq, hl⟩

/-- A fragment is the front of what is offered, as long as it may be. -/
theorem length_of_sent (hs : Sound s t.before.transport) {fragment : List UInt8}
    (h : fragment ∈ t.sent) :
    fragment ≠ [] ∧ fragment.length = min (max s.maxFragment 1) t.offered.length := by
  have hlimit : t.before.limit = max s.maxFragment 1 := hs.limit
  have front (hne : t.offered ≠ []) : t.offered.take t.before.limit ≠ [] ∧
      (t.offered.take t.before.limit).length = min (max s.maxFragment 1) t.offered.length := by
    rw [hlimit, List.length_take]
    refine ⟨?_, rfl⟩
    intro hnil
    rcases List.take_eq_nil_iff.1 hnil with hzero | hnil
    · omega
    · exact hne hnil
  have hflow := outflow hs
  unfold sent at h
  generalize t.writes = ws at h hflow
  generalize t.after.outgoing = q at hflow
  cases hflow with
  | kept => cases h
  | sent hne =>
    rw [List.mem_singleton.1 h]
    exact front hne
  | turnedAway hne =>
    rw [List.mem_singleton.1 h]
    exact front hne
  | dropped hcut => cases h

/-- The turns since the last link was established, from the turn that did it. -/
def sinceUp (ts : List (Turn ρ σ)) : List (Turn ρ σ) :=
  ts.foldl (fun link t => if t.establishes then [t] else link ++ [t]) []

theorem sinceUp_concat (ts : List (Turn ρ σ)) (t : Turn ρ σ) :
    sinceUp (ts ++ [t]) = if t.establishes then [t] else sinceUp ts ++ [t] := by
  unfold sinceUp
  rw [List.foldl_append]
  rfl

/-- The turns of a link are the last ones of a run. -/
theorem sinceUp_suffix (ts : List (Turn ρ σ)) : sinceUp ts <:+ ts := by
  induction ts using List.reverseRecOn with
  | nil => exact List.suffix_rfl
  | append_singleton ts t ih =>
    rw [sinceUp_concat]
    split
    · exact List.suffix_append ts [t]
    · obtain ⟨before, hbefore⟩ := ih
      exact ⟨before, by rw [← List.append_assoc, hbefore]⟩

end Turn

namespace Endpoint

variable {ρ σ : Type} [Radio ρ] [DeviceStore σ] {s : LinkSettings} {w : Endpoint (Logged ρ) σ}

open Turn

/-! ## Runs -/

theorem sound_runLogged (h : Sound s w.transport) (steps : List (Step ρ σ)) :
    Sound s (w.runLogged steps).transport := sound_run h _

theorem sound_of_mem_turns (h : Sound s w.transport) {steps : List (Step ρ σ)} {t : Turn ρ σ}
    (ht : t ∈ turns steps w) : Sound s t.before.transport := by
  induction steps generalizing w with
  | nil => cases ht
  | cons st steps ih =>
    rcases List.mem_cons.1 ht with rfl | ht
    · exact h
    · exact ih (sound_step h st.logged) ht

/-- All that was accepted on a link is what was sent and lost on it and what is still queued. -/
theorem accepted_sinceUp (h : Sound s w.transport) (hw : w.outgoing = [])
    (steps : List (Step ρ σ)) :
    (sinceUp (turns steps w)).flatMap accepted =
      (sinceUp (turns steps w)).flatMap (fun t => t.sent.flatten ++ t.lost) ++
        (w.runLogged steps).outgoing := by
  induction steps using List.reverseRecOn with
  | nil => exact hw.symm
  | append_singleton steps st ih =>
    let t : Turn ρ σ := ⟨w.runLogged steps, st⟩
    have hsound : Sound s t.before.transport := sound_runLogged h steps
    have hsplit : t.before.outgoing ++ t.accepted =
        t.sent.flatten ++ t.lost ++ t.after.outgoing := (offered_splits hsound).1
    have hafter : w.runLogged (steps ++ [st]) = t.after := runLogged_concat steps st w
    rw [turns_concat, sinceUp_concat, hafter]
    split
    · rename_i hup
      have hdown : t.before.transport.connection.isConnected = false := by
        rw [establishes, Bool.and_eq_true] at hup
        simpa using hup.1
      have hnone : t.before.outgoing = [] := hsound.unqueued hdown
      rw [hnone, List.nil_append] at hsplit
      simpa using hsplit
    · rw [List.flatMap_append, ih, List.flatMap_append]
      simp only [List.flatMap_cons, List.flatMap_nil, List.append_nil]
      rw [List.append_assoc, List.append_assoc]
      exact congrArg _ hsplit

/-- The outbound stream of a link, at any moment of any run of a transport that was created. What
was accepted since the link came up is, in order, what was handed to the radio, what was lost and
what is still queued, and nothing is lost without a reason. Each fragment is the longest allowed
and is part of what was accepted on this link. The queue keeps within its capacity. -/
theorem outbound_stream_faithful {target : Option String} {radio : Logged ρ} {store : σ}
    (hw : create s target radio store = .ok w) (steps : List (Step ρ σ)) :
    let link := sinceUp (turns steps w)
    let queued := (w.runLogged steps).outgoing
    link.flatMap accepted = link.flatMap (fun t => t.sent.flatten ++ t.lost) ++ queued ∧
    (∀ t ∈ link, t.lost ≠ [] → t.Discards) ∧
    ((∀ t ∈ link, ¬ t.Discards) →
      link.flatMap accepted = (link.flatMap sent).flatten ++ queued) ∧
    (∀ t ∈ turns steps w, ∀ fragment ∈ t.sent,
      fragment ≠ [] ∧ fragment.length = min (max 1 s.maxFragment) t.offered.length) ∧
    (∀ t ∈ link, ∀ fragment ∈ t.sent, fragment <:+: link.flatMap accepted) ∧
    queued.length ≤ s.outboundCapacity := by
  intro link queued
  have hsound : Sound s w.transport := sound_create hw
  have hempty : w.outgoing = [] := by
    obtain ⟨a, devices, -, rfl⟩ := create_eq hw
    rfl
  have hsplit := accepted_sinceUp hsound hempty steps
  have hlost : ∀ t ∈ link, t.lost ≠ [] → t.Discards := fun t ht =>
    (offered_splits (sound_of_mem_turns hsound ((sinceUp_suffix _).mem ht))).2
  refine ⟨hsplit, hlost, ?_, ?_, ?_, (sound_runLogged hsound steps).fits⟩
  · intro hnone
    have hkept : ∀ t ∈ link, t.lost = [] := fun t ht => by
      by_contra hne
      exact hnone t ht (hlost t ht hne)
    have hsent : link.flatMap (fun t => t.sent.flatten ++ t.lost) =
        (link.flatMap sent).flatten := by
      rw [← List.flatMap_id, List.flatMap_assoc]
      refine List.flatMap_congr fun t ht => ?_
      rw [hkept t ht, List.append_nil, List.flatMap_id]
    rw [hsplit, hsent]
  · intro t ht fragment hf
    rw [Nat.max_comm]
    exact length_of_sent (sound_of_mem_turns hsound ht) hf
  · intro t ht fragment hf
    have hturn : fragment <:+: t.sent.flatten ++ t.lost :=
      (List.infix_of_mem_flatten hf).trans (List.prefix_append _ _).isInfix
    have hlink : t.sent.flatten ++ t.lost <:+: link.flatMap fun t => t.sent.flatten ++ t.lost := by
      rw [List.flatMap_def]
      exact List.infix_of_mem_flatten (List.mem_map_of_mem ht)
    rw [hsplit]
    exact (hturn.trans hlink).trans (List.prefix_append _ _).isInfix

/-- Five bytes in fragments of two: the first fragment fails, and the bytes behind it are lost. -/
theorem outbound_stream_of_failed_fragment :
    ∃ (w : Endpoint (Logged Radio.Simulated) Store.Memory)
      (steps : List (Step Radio.Simulated Store.Memory)),
      create { maxFragment := 2, writeDelay := 0 } none
        ⟨{ behaviour := { writeSuccess := false } }, []⟩ {} = .ok w ∧
      (sinceUp (turns steps w)).flatMap accepted = [1, 2, 3, 4, 5] ∧
      (sinceUp (turns steps w)).flatMap sent = [[1, 2]] ∧
      (sinceUp (turns steps w)).flatMap lost = [3, 4, 5] ∧
      (sinceUp (turns steps w)).flatMap accepted =
        (sinceUp (turns steps w)).flatMap (fun t => t.sent.flatten ++ t.lost) ++
          (w.runLogged steps).outgoing := by
  let settings : LinkSettings := { maxFragment := 2, writeDelay := 0 }
  let radio : Logged Radio.Simulated := ⟨{ behaviour := { writeSuccess := false } }, []⟩
  let steps : List (Step Radio.Simulated Store.Memory) :=
    [.act .start, .act (.connect (some ⟨1, 2, 3, 4, 5, 6⟩)), .act .next, .act .next,
      .act (.write [1, 2, 3, 4, 5]), .act .next]
  have hw : create settings none radio ({} : Store.Memory) = .ok _ := rfl
  exact ⟨_, steps, hw, by decide, by decide, by decide, (outbound_stream_faithful hw steps).1⟩

end Endpoint

end VehicleLink
