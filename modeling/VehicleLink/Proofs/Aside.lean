import VehicleLink.Proofs.Run

/-!
# What leaves the link alone

Two relations that bound what an operation does, so that callers need not open it.

* `Asks P w w'`: the radio and the inbox of `w'` come from those of `w` by calls of which every one
  satisfies `P`. Whatever calls keep, such an operation keeps (`Asks.induction`).
* `Aside w w'`: `w'` differs from `w` at most in what is remembered, observed and paced, and in
  scanning. Scans, reports of scans, saves and the bookkeeping of polls are of this kind.
-/

namespace VehicleLink

def Call.isScan : Call → Bool
  | .scan _ => true
  | .stopScan => true
  | _ => false

def Call.isConnect : Call → Bool
  | .connect _ => true
  | _ => false

def Call.isWrite : Call → Bool
  | .write .. => true
  | _ => false

namespace Endpoint

variable {ρ σ : Type} [Radio ρ] {P Q : Call → Prop} {w w' w'' : Endpoint ρ σ}

/-! ## Calls of a kind -/

/-- From one radio and inbox to another by calls of a kind. -/
inductive Asking (P : Call → Prop) : ρ × List Event → ρ × List Event → Prop
  | none (x) : Asking P x x
  | call {x y} (c : Call) (hc : P c) : Asking P x y →
      Asking P x ((Radio.submit c y.1).2, y.2 ++ (Radio.submit c y.1).1.raised)

omit [Radio ρ] in
def air (w : Endpoint ρ σ) : ρ × List Event := (w.radio, w.inbox)

/-- The radio and the inbox change by calls of a kind only. -/
def Asks (P : Call → Prop) (w w' : Endpoint ρ σ) : Prop := Asking P w.air w'.air

theorem Asking.trans {x y z : ρ × List Event} (h₁ : Asking P x y) (h₂ : Asking P y z) :
    Asking P x z := by
  induction h₂ with
  | none => exact h₁
  | call c hc _ ih => exact .call c hc ih

theorem Asks.trans (h₁ : Asks P w w') (h₂ : Asks P w' w'') : Asks P w w'' := Asking.trans h₁ h₂

theorem Asking.mono {x y : ρ × List Event} (h : Asking P x y) (hPQ : ∀ c, P c → Q c) :
    Asking Q x y := by
  induction h with
  | none => exact .none _
  | call c hc _ ih => exact .call c (hPQ c hc) ih

theorem Asks.mono (h : Asks P w w') (hPQ : ∀ c, P c → Q c) : Asks Q w w' := Asking.mono h hPQ

theorem Asks.of_air (h : w'.air = w.air) : Asks P w w' := by
  unfold Asks; rw [h]; exact .none _

theorem Asks.submit (c : Call) (hc : P c) : Asks P w (w.submit c).2 :=
  .call (x := w.air) (y := w.air) c hc (.none _)

/-- An operation of which the last call is `c`, and that leaves the air as that call left it. -/
theorem Asks.of_submit {c : Call} (hc : P c) (h : w'.air = (w.submit c).2.air) : Asks P w w' :=
  (Asks.submit c hc).trans (.of_air h)

theorem Asks.update (h : Asks P w w') (f : Transport → Transport) : Asks P w (w'.update f) :=
  h.trans (.of_air rfl)

/-- What every call of the kind keeps of the radio and the inbox is kept. -/
theorem Asks.induction {K : ρ → List Event → Prop}
    (hK : ∀ c r i, P c → K r i → K (Radio.submit c r).2 (i ++ (Radio.submit c r).1.raised))
    (h : Asks P w w') (hw : K w.radio w.inbox) : K w'.radio w'.inbox := by
  have key : ∀ {x y : ρ × List Event}, Asking P x y → K x.1 x.2 → K y.1 y.2 := by
    intro x y hxy hx
    induction hxy with
    | none => exact hx
    | call c hc _ ih => exact hK c _ _ hc ih
  exact key h hw

theorem Asks.inbox_prefix (h : Asks P w w') : w.inbox <+: w'.inbox :=
  h.induction (K := fun _ i => w.inbox <+: i)
    (fun _ _ _ _ hi => hi.trans (List.prefix_append ..)) List.prefix_rfl

/-- The log of a radio goes on, with calls of a kind. -/
def Logs (P : Call → Prop) (w w' : Endpoint (Logged ρ) σ) : Prop :=
  ∃ cs, w'.radio.log = w.radio.log ++ cs ∧ ∀ c ∈ cs, P c.1

theorem Asks.log {w w' : Endpoint (Logged ρ) σ} (h : Asks P w w') : Logs P w w' := by
  refine h.induction (K := fun r _ => ∃ cs, r.log = w.radio.log ++ cs ∧ ∀ c ∈ cs, P c.1) ?_
    ⟨[], by simp, by simp⟩
  rintro c r i hc ⟨cs, hlog, hcs⟩
  refine ⟨cs ++ [(c, (Radio.submit c r.radio).1.accepted)], ?_, ?_⟩
  · rw [← List.append_assoc, ← hlog]; rfl
  · intro x hx
    rcases List.mem_append.1 hx with hx | hx
    · exact hcs x hx
    · rw [List.mem_singleton] at hx; subst hx; exact hc

theorem log_of_air {w w' : Endpoint (Logged ρ) σ} {c : Call} (h : w'.air = (w.submit c).2.air) :
    w'.radio.log = w.radio.log ++ [(c, (w.submit c).1)] := congrArg (fun x => Logged.log x.1) h

/-! ## Operations beside the link -/

omit [Radio ρ] in
/-- Two transports that want the same. -/
structure SameSetup (t t' : Transport) : Prop where
  settings : t'.settings = t.settings := by rfl
  target : t'.policy.target = t.policy.target := by rfl
  automatic : t'.policy.automatic = t.policy.automatic := by rfl
  running : t'.running = t.running := by rfl

omit [Radio ρ] in
/-- Two transports that want the same and hold the same bytes. -/
structure SameTraffic (t t' : Transport) : Prop extends SameSetup t t' where
  outbound : t'.outbound = t.outbound := by rfl
  inbound : t'.inbound = t.inbound := by rfl

omit [Radio ρ] in
/-- Two transports that moreover agree on the link and on the attempts at it. -/
structure SameLink (t t' : Transport) : Prop extends SameTraffic t t' where
  connection : t'.connection = t.connection := by rfl
  candidates : t'.candidates = t.candidates := by rfl
  tally : t'.tally = t.tally := by rfl

theorem SameSetup.trans {t t' t'' : Transport} (h₁ : SameSetup t t') (h₂ : SameSetup t' t'') :
    SameSetup t t'' where
  settings := h₂.settings.trans h₁.settings
  target := h₂.target.trans h₁.target
  automatic := h₂.automatic.trans h₁.automatic
  running := h₂.running.trans h₁.running

theorem SameTraffic.trans {t t' t'' : Transport} (h₁ : SameTraffic t t')
    (h₂ : SameTraffic t' t'') : SameTraffic t t'' where
  toSameSetup := h₁.toSameSetup.trans h₂.toSameSetup
  outbound := h₂.outbound.trans h₁.outbound
  inbound := h₂.inbound.trans h₁.inbound

theorem SameLink.trans {t t' t'' : Transport} (h₁ : SameLink t t') (h₂ : SameLink t' t'') :
    SameLink t t'' where
  toSameTraffic := h₁.toSameTraffic.trans h₂.toSameTraffic
  connection := h₂.connection.trans h₁.connection
  candidates := h₂.candidates.trans h₁.candidates
  tally := h₂.tally.trans h₁.tally

/-- The link stays as it is; the radio is at most asked to scan or to stop scanning. -/
structure Aside (w w' : Endpoint ρ σ) : Prop where
  link : SameLink w.transport w'.transport
  asks : Asks (fun c => c.isScan = true) w w'
  now : w'.now = w.now

theorem Aside.refl (w : Endpoint ρ σ) : Aside w w := ⟨{}, .of_air rfl, rfl⟩

theorem Aside.trans (h₁ : Aside w w') (h₂ : Aside w' w'') : Aside w w'' :=
  ⟨h₁.link.trans h₂.link, h₁.asks.trans h₂.asks, h₂.now.trans h₁.now⟩

theorem Aside.update (f : Transport → Transport) (hf : SameLink w.transport (f w.transport)) :
    Aside w (w.update f) := ⟨hf, .of_air rfl, rfl⟩

theorem Aside.submit (c : Call) (hc : c.isScan = true) : Aside w (w.submit c).2 :=
  ⟨{}, .submit c hc, rfl⟩

theorem aside_persist [DeviceStore σ] (w : Endpoint ρ σ) : Aside w w.persist :=
  ⟨{}, .of_air rfl, rfl⟩

theorem aside_beginScan (w : Endpoint ρ σ) : Aside w w.beginScan := by
  let cleared := w.update fun t => { t with observed := [] }
  let asked := cleared.submit (.scan cleared.transport.settings.scanWindow)
  have h₁ : Aside w cleared := .update _ {}
  have h₂ : Aside cleared asked.2 := .submit _ rfl
  exact (h₁.trans h₂).trans (.update (fun t => { t with scanning := asked.1 }) {})

theorem aside_endScan (w : Endpoint ρ σ) : Aside w w.endScan := by
  unfold endScan
  split
  · have h : Aside w (w.issue .stopScan) := .submit _ rfl
    exact h.trans (.update (fun t => { t with scanning := false }) {})
  · exact .refl w

theorem aside_forgetScan (w : Endpoint ρ σ) : Aside w w.forgetScan :=
  .update (fun t => { t with scanning := false }) {}

theorem aside_claimPoll (instant : Nanos) (w : Endpoint ρ σ) : Aside w (w.claimPoll instant).2 := by
  unfold claimPoll
  split
  · exact .refl w
  · split
    · exact .update (fun t => { t with policy := t.policy.recordAttempt instant }) {}
    · exact .refl w

theorem aside_onScanResult [DeviceStore σ] (d : Device) (w : Endpoint ρ σ) :
    Aside w (w.onScanResult d) := by
  let seen := w.update fun t => { t with discovered := t.discovered.insert d.address d.summary }
  have h₁ : Aside w seen := .update _ {}
  have observe (w' : Endpoint ρ σ) :
      Aside w' (w'.update fun t => { t with observed := Transport.observe d t.observed }) :=
    .update _ {}
  unfold onScanResult
  dsimp only
  split
  · have h₂ : Aside seen
        (seen.update fun t => { t with devices := t.devices.remember d.address }) := .update _ {}
    exact ((h₁.trans h₂).trans (aside_persist _)).trans (observe _)
  · exact h₁.trans (observe _)

theorem aside_onScanComplete (w : Endpoint ρ σ) : Aside w w.onScanComplete := by
  refine .update _ ?_
  dsimp only
  split <;> exact {}

/-! ## Operations on the received bytes and the target -/

section

omit [Radio ρ]

theorem read_eq (n : Nat) (w : Endpoint ρ σ) :
    ∃ inbound, (w.read n).2 = w.update fun t => { t with inbound } := by
  unfold Endpoint.read
  split
  · exact ⟨_, rfl⟩
  · exact ⟨w.transport.inbound, rfl⟩

theorem onReceived_eq (fragment : List UInt8) (w : Endpoint ρ σ) :
    ∃ inbound, w.onReceived fragment = w.update fun t => { t with inbound } := by
  unfold onReceived
  split
  · exact ⟨_, rfl⟩
  · exact ⟨w.transport.inbound, rfl⟩

theorem setTarget_eq (target : Option String) (w : Endpoint ρ σ) :
    ∃ policy, (w.setTarget target).2 = w.update fun t => { t with policy } := by
  unfold setTarget
  split
  · exact ⟨w.transport.policy, rfl⟩
  · exact ⟨_, rfl⟩

end

end Endpoint

end VehicleLink
