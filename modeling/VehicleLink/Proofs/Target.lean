import VehicleLink.Proofs.Sound
import VehicleLink.Proofs.Turns
import VehicleLink.Radio.Simulated

/-!
# Attempts and the configured target

After a new target was set, the attempts that a transport makes of its own accord go to it, except
that candidates queued before are still tried when the attempt under way fails. So all later
attempts follow the target if and only if no other candidate was queued when it was set
(`attempts_follow_target_iff`).
-/

namespace VehicleLink

namespace Endpoint

variable {ρ σ : Type} [Radio ρ] {d : Address} {w w' : Endpoint ρ σ}

/-! ## Aimed transports -/

/-- The target and all queued candidates have the address `d`. -/
structure Aimed (d : Address) (t : Transport) : Prop where
  target : t.policy.target = some d
  candidates : ∀ c ∈ t.candidates, c.address = d

/-- A connection is asked for from `d` only. -/
def Follows (d : Address) (c : Call) : Prop := ∀ a, c = .connect a → a = d

theorem follows_of_no_connect {c : Call} (h : c.isConnect = false) : Follows d c := by
  rintro a rfl
  cases h

/-- What an operation does to an aimed transport. -/
structure Steers (d : Address) (w w' : Endpoint ρ σ) : Prop where
  aimed : Aimed d w'.transport
  asks : Asks (Follows d) w w'

theorem Steers.trans {w'' : Endpoint ρ σ} (h₁ : Steers d w w') (h₂ : Steers d w' w'') :
    Steers d w w'' := ⟨h₂.aimed, h₁.asks.trans h₂.asks⟩

/-! ## What keeps the aim -/

theorem Aimed.calm (h : Aimed d w.transport) (hc : Calm w w') : Steers d w w' :=
  ⟨⟨hc.target.trans h.target, fun c hk => h.candidates c (hc.candidates c hk)⟩,
    hc.asks.mono fun _ => follows_of_no_connect⟩

theorem Aimed.linkUp (h : Aimed d w.transport) (hup : LinkUpDone w w') : Steers d w w' := by
  have hopen {p : Address} {u : Endpoint ρ σ} (ho : Opened p w u) :
      Steers d w (u.submit .discover).2 := by
    have hasks : Asks (fun c => c.isConnect = false) w (u.submit .discover).2 :=
      (ho.asks.mono no_connect_of_scan).trans (.submit _ rfl)
    refine ⟨⟨ho.setup.target.trans h.target, fun c hc => ?_⟩,
      hasks.mono fun _ => follows_of_no_connect⟩
    change c ∈ u.transport.candidates at hc
    rw [ho.candidates] at hc
    cases hc
  cases hup with
  | unexpected => exact h.calm (.refl w)
  | cancelled p hc traffic connection candidates air now =>
    exact ⟨⟨traffic.target.trans h.target, fun c hc => h.candidates c (candidates ▸ hc)⟩,
      .of_submit (follows_of_no_connect rfl) air⟩
  | @kept u p hc opened taken => exact hopen opened
  | @dropped u _ p hc opened refused dropped =>
    have hconn : (u.submit .discover).2.transport.connection = .connected p false false :=
      opened.connection
    exact (hopen opened).trans ((hopen opened).aimed.calm (dropped.calm hconn))

theorem Aimed.attempted {cs : List Candidate} (h : w.transport.policy.target = some d)
    (hcs : ∀ c ∈ cs, c.address = d) (ha : Attempted cs w w') : Steers d w w' := by
  refine ⟨⟨ha.traffic.target.trans h, fun c hc => ?_⟩, ha.asks.mono ?_⟩
  · rcases ha.outcome with hnone | ⟨refused, k, rest, hsplit, hrest, -⟩
    · rw [hnone.candidates] at hc
      cases hc
    · rw [hrest] at hc
      exact hcs c (by rw [hsplit]; simp [hc])
  · rintro k ⟨c, hc, rfl⟩ a ⟨⟩
    exact hcs c hc

theorem Aimed.linkDown (h : Aimed d w.transport) (hdown : LinkDownDone w w') :
    Steers d w w' := by
  have hgone : Steers d w w.gone := ⟨⟨h.target, h.candidates⟩, .of_air rfl⟩
  cases hdown with
  | ignored => exact h.calm (.refl w)
  | failed p hc =>
    let v := w.gone.update (Transport.noteError (.connectFailed p))
    have ha : Attempted w.transport.candidates v _ := attempted_tryCandidates _ rfl
    have hv : Steers d w v := ⟨⟨h.target, h.candidates⟩, .of_air rfl⟩
    exact hv.trans (Aimed.attempted h.target h.candidates ha)
  | cancelled p hc => exact hgone.trans (hgone.aimed.calm (calm_queueing _))
  | lost p ready hc => exact hgone.trans ⟨⟨h.target, h.candidates⟩, .of_air rfl⟩
  | closed p ready hc => exact hgone

section Store

variable [DeviceStore σ]

theorem Aimed.handle (h : Aimed d w.transport) (e : Event) : Steers d w (w.handle e) := by
  by_cases hup : e = .linkUp
  · rw [hup]
    exact h.linkUp (linkUpDone_onLinkUp w)
  · by_cases hdown : e = .linkDown
    · rw [hdown]
      exact h.linkDown (linkDownDone_onLinkDown w)
    · exact h.calm (calm_handle e w hup hdown)

omit [DeviceStore σ] in
/-- A search for what the policy says goes to the target. -/
theorem Aimed.seek (h : Aimed d w.transport) (hs : Seek none w w') : Steers d w w' := by
  cases hs with
  | idle ha => exact h.calm ha.calm
  | @tries u cs hw hu hcs =>
    have hplan : planFor none w.transport = .target d := by
      show w.transport.policy.plan w.transport.devices.lastConnected = .target d
      rw [Reconnect.Policy.plan, Reconnect.Policy.mode, h.target]
      rfl
    have hcands : ∀ c ∈ cs, c.address = d := by
      rw [hcs d hplan]
      intro c hc
      rw [List.mem_singleton.1 hc]
      rfl
    have hu' : Steers d w u := h.calm ((calm_queueing w).trans hu.calm)
    exact hu'.trans (Aimed.attempted hu'.aimed.target hcands
      (attempted_tryCandidates cs (hu.link.connection.trans hw)))

/-- A connection to an address of the consumer's choice leaves no other candidates behind. -/
theorem Aimed.connect (h : Aimed d w.transport) (x : Address) :
    Aimed d (w.connect (some x)).transport := by
  have hs := seek_connect (some x) w
  generalize w.connect (some x) = w' at hs ⊢
  cases hs with
  | idle ha => exact (h.calm ha.calm).aimed
  | @tries u cs hw hu hcs =>
    have ha := attempted_tryCandidates (w := u) cs (hu.link.connection.trans hw)
    refine ⟨(ha.traffic.target.trans hu.link.target).trans h.target, fun c hc => ?_⟩
    rcases ha.outcome with hnone | ⟨refused, k, rest, hsplit, hrest, -⟩
    · rw [hnone.candidates] at hc
      cases hc
    · have hlength := congrArg List.length hsplit
      rw [hcs x rfl, List.length_append, List.length_cons, List.length_cons] at hlength
      have : rest = [] := List.eq_nil_of_length_eq_zero (by rw [List.length_nil] at hlength; omega)
      rw [hrest, this] at hc
      cases hc

end Store

end Endpoint

/-! ## Runs -/

def Step.retargets {ρ σ : Type} : Step ρ σ → Bool
  | .act (.setTarget _) => true
  | _ => false

/-- A consumer asks for a connection to an address of its choice. -/
def Step.chooses {ρ σ : Type} : Step ρ σ → Bool
  | .act (.connect (some _)) => true
  | _ => false

namespace Endpoint

variable {ρ σ : Type} [Radio ρ] [DeviceStore σ] {d : Address} {w : Endpoint (Logged ρ) σ}

theorem Aimed.act (h : Aimed d w.transport) (a : Action)
    (hset : Step.retargets (.act a : Step ρ σ) = false)
    (hchoice : Step.chooses (.act a : Step ρ σ) = false) :
    Aimed d (w.act a).transport ∧ Logs (Follows d) w (w.act a) := by
  have steered {w' : Endpoint (Logged ρ) σ} (hs : Steers d w w') :
      Aimed d w'.transport ∧ Logs (Follows d) w w' := ⟨hs.aimed, hs.asks.log⟩
  cases a with
  | start => exact steered (h.calm (.of_same (.of_air rfl) rfl rfl rfl))
  | stop => exact steered (h.calm (calm_stop w))
  | connect target =>
    cases target with
    | none => exact steered (h.seek (seek_connect none w))
    | some x => cases hchoice
  | disconnect => exact steered (h.calm (ended_disconnect w).calm)
  | pollAt instant => exact steered (h.seek (seek_pollAt instant w))
  | startScan => exact steered (h.calm (aside_beginScan w).calm)
  | write bytes => exact steered (h.calm (written_write bytes w).calm)
  | read n => exact steered (h.calm (calm_read n w))
  | setTarget target => cases hset
  | drainDue => exact steered (h.calm (drained_drain w).calm)
  | handle e => exact steered (h.handle e)
  | next =>
    show Aimed d w.handleNext.transport ∧ Logs (Follows d) w w.handleNext
    cases hinbox : w.inbox with
    | nil =>
      rw [handleNext_nil hinbox]
      exact steered (h.calm (.refl w))
    | cons e rest =>
      rw [handleNext_cons hinbox]
      have hs := Aimed.handle (w := { w with inbox := rest }) h e
      exact ⟨hs.aimed, hs.asks.log⟩
  | raise e => exact ⟨h, [], (List.append_nil _).symm, fun _ hc => absurd hc List.not_mem_nil⟩
  | wait n => exact ⟨h, [], (List.append_nil _).symm, fun _ hc => absurd hc List.not_mem_nil⟩

/-- One turn keeps the aim, and if no consumer chose, it asks for connections to `d` only. -/
theorem Aimed.turn {t : Turn ρ σ} (h : Aimed d t.before.transport)
    (hset : t.step.retargets = false) :
    Aimed d t.after.transport ∧
      (t.step.chooses = false → ∀ a ok, (.connect a, ok) ∈ t.calls → a = d) := by
  obtain ⟨w, st⟩ := t
  cases st with
  | radio f =>
    have hlogs : Logs (Follows d) w (Turn.after ⟨w, .radio f⟩) :=
      ⟨[], (List.append_nil _).symm, fun _ hc => absurd hc List.not_mem_nil⟩
    exact ⟨h, fun _ a ok hc => Logs.calls hlogs _ hc a rfl⟩
  | store f =>
    have hlogs : Logs (Follows d) w (Turn.after ⟨w, .store f⟩) :=
      ⟨[], (List.append_nil _).symm, fun _ hc => absurd hc List.not_mem_nil⟩
    exact ⟨h, fun _ a ok hc => Logs.calls hlogs _ hc a rfl⟩
  | act a =>
    cases hchoice : Step.chooses (.act a : Step ρ σ) with
    | false =>
      obtain ⟨haimed, hlogs⟩ := Aimed.act h a hset hchoice
      exact ⟨haimed, fun _ b ok hc => Logs.calls (t := ⟨w, .act a⟩) hlogs _ hc b rfl⟩
    | true =>
      refine ⟨?_, fun hno => absurd hno Bool.noConfusion⟩
      cases a <;> first | cases hchoice | skip
      rename_i target
      cases target with
      | none => cases hchoice
      | some x => exact Aimed.connect h x

theorem Aimed.turns (h : Aimed d w.transport) {later : List (Step ρ σ)}
    (hset : ∀ st ∈ later, st.retargets = false) :
    ∀ t ∈ turns later w, t.step.chooses = false → ∀ a ok, (.connect a, ok) ∈ t.calls → a = d := by
  induction later generalizing w with
  | nil => intro t ht; cases ht
  | cons st later ih =>
    have hturn := Aimed.turn (t := ⟨w, st⟩) h (hset st List.mem_cons_self)
    intro t ht
    rcases List.mem_cons.1 ht with rfl | ht
    · exact hturn.2
    · exact ih hturn.1 (fun st hst => hset st (List.mem_cons_of_mem _ hst)) t ht

/-! ## Candidates queued before -/

omit [DeviceStore σ] in
/-- Attempts ask for a first part of the candidates, at least for one; the others are queued behind
an attempt under way. -/
theorem tried_tryCandidates {w : Endpoint (Logged ρ) σ} (cs : List Candidate)
    (hw : w.transport.connection = .disconnected) :
    ∃ tried rest oks, cs = tried ++ rest ∧ (cs ≠ [] → tried ≠ []) ∧
      (tryCandidates cs w).transport.candidates = rest ∧
      (rest ≠ [] → ∃ p, (tryCandidates cs w).transport.connection = .connecting p false) ∧
      (tryCandidates cs w).radio.log = w.radio.log ++ oks ∧
      oks.map Prod.fst = tried.map fun c => .connect c.address := by
  obtain ⟨asked, htried, hlog, -⟩ := triedOut_tryCandidates cs hw
  generalize tryCandidates cs w = w' at htried hlog
  cases htried with
  | refused connection candidates =>
    refine ⟨cs, [], _, (List.append_nil cs).symm, id, candidates, fun h => absurd rfl h, hlog, ?_⟩
    simp
  | takenUp refused c split connection =>
    refine ⟨refused ++ [c], w'.transport.candidates, _, by simpa using split, by simp, rfl,
      fun _ => ⟨c.address, connection⟩, hlog, ?_⟩
    simp

/-- Every queued candidate is tried if the attempts before it fail. -/
theorem queued_is_tried {w : Endpoint (Logged ρ) σ} {p : Address}
    (hw : w.transport.connection = .connecting p false) {c : Candidate}
    (hc : c ∈ w.transport.candidates) :
    ∃ n, ∃ t ∈ turns (List.replicate n (.act (.handle .linkDown)) : List (Step ρ σ)) w,
      ∃ ok, (.connect c.address, ok) ∈ t.calls := by
  generalize hcs : w.transport.candidates = cs at hc
  induction hlen : cs.length using Nat.strongRecOn generalizing w cs p with
  | ind n ih =>
    let t : Turn ρ σ := ⟨w, .act (.handle .linkDown)⟩
    let v := w.gone.update (Transport.noteError (.connectFailed p))
    have hafter : t.after = tryCandidates cs v := by
      show w.onLinkDown = _
      rw [onLinkDown, hw, ← hcs]
      rfl
    obtain ⟨tried, rest, oks, hsplit, htried, hrest, hconn, hlog, hoks⟩ :=
      tried_tryCandidates (w := v) cs rfl
    have hcalls : t.calls = oks := by
      unfold Turn.calls
      rw [hafter, hlog]
      exact List.drop_left
    rw [hsplit] at hc
    rcases List.mem_append.1 hc with hc | hc
    · have hmem : .connect c.address ∈ t.calls.map Prod.fst := by
        rw [hcalls, hoks]
        exact List.mem_map_of_mem hc
      obtain ⟨⟨_, ok⟩, hcall, rfl⟩ := List.mem_map.1 hmem
      exact ⟨1, t, List.mem_cons_self, ok, hcall⟩
    · obtain ⟨q, hq⟩ := hconn (List.ne_nil_of_mem hc)
      have hshort : rest.length < n := by
        have htried' : tried ≠ [] := htried (by rw [hsplit]; simp [List.ne_nil_of_mem hc])
        have := List.length_pos_iff.2 htried'
        rw [← hlen, hsplit, List.length_append]
        omega
      obtain ⟨m, u, hu, ok, hcall⟩ := ih rest.length hshort (w := t.after) (hafter ▸ hq)
        rest (hafter ▸ hrest) hc rfl
      exact ⟨m + 1, u, List.mem_cons_of_mem _ hu, ok, hcall⟩

/-! ## Setting a target -/

omit [Radio ρ] [DeviceStore σ] in
/-- A text that spells an address becomes the target, and the queued candidates stay. -/
theorem setTarget_some (w : Endpoint ρ σ) {text : String} (hd : Address.parse? text = some d) :
    (w.setTarget (some text)).2.transport.policy.target = some d ∧
      (w.setTarget (some text)).2.transport.candidates = w.transport.candidates ∧
      (w.setTarget (some text)).2.transport.connection = w.transport.connection := by
  rw [setTarget, Address.parseOptional, Address.parse, hd]
  exact ⟨rfl, rfl, rfl⟩

/-- When a target is set, all attempts until the next one is set, other than those to an address of
the consumer's choice, go to it if and only if every candidate queued at that moment has its
address. -/
theorem attempts_follow_target_iff {s : LinkSettings} {target : Option String} {radio : Logged ρ}
    {store : σ} (hw : create s target radio store = .ok w) (steps : List (Step ρ σ))
    {text : String} (hd : Address.parse? text = some d) :
    (∀ later : List (Step ρ σ), (∀ st ∈ later, st.retargets = false) →
      ∀ t ∈ turns later ((w.runLogged steps).setTarget (some text)).2, t.step.chooses = false →
        ∀ a ok, (.connect a, ok) ∈ t.calls → a = d) ↔
      ∀ c ∈ (w.runLogged steps).transport.candidates, c.address = d := by
  obtain ⟨htarget, hcands, hconn⟩ := setTarget_some (w.runLogged steps) hd
  constructor
  · intro hall c hc
    have hsound : Sound s (w.runLogged steps).transport := sound_run (sound_create hw) _
    obtain ⟨p, hp⟩ := hsound.waiting (List.ne_nil_of_mem hc)
    obtain ⟨n, t, ht, ok, hcall⟩ := queued_is_tried (hconn.trans hp) (hcands ▸ hc)
    have hdown : ∀ st ∈ (List.replicate n (.act (.handle .linkDown)) : List (Step ρ σ)),
        st = .act (.handle .linkDown) := fun st hst => List.eq_of_mem_replicate hst
    refine hall _ (fun st hst => by rw [hdown st hst]; rfl) t ht ?_ _ ok hcall
    rw [hdown t.step (step_mem_of_mem_turns ht)]
    rfl
  · intro hcs later hset
    exact Aimed.turns ⟨htarget, fun c hc => hcs c (hcands ▸ hc)⟩ hset

/-- Of two remembered devices the first is being tried when the second becomes the target: from then
on only the second is tried. -/
theorem attempts_follow_queued_target :
    ∃ (w : Endpoint (Logged Radio.Simulated) Store.Memory)
      (steps : List (Step Radio.Simulated Store.Memory)),
      create {} none ⟨{ behaviour := { autoConnect := false } }, []⟩
        ⟨{ known := (({} : AddressSet).insert ⟨0, 0, 0, 0, 0, 10⟩).insert ⟨0, 0, 0, 0, 0, 11⟩ }⟩ =
          .ok w ∧
      Address.parse? "00:00:00:00:00:0B" = some ⟨0, 0, 0, 0, 0, 11⟩ ∧
      (w.runLogged steps).transport.connection = .connecting ⟨0, 0, 0, 0, 0, 10⟩ false ∧
      (∀ c ∈ (w.runLogged steps).transport.candidates, c.address = ⟨0, 0, 0, 0, 0, 11⟩) ∧
      ∀ later : List (Step Radio.Simulated Store.Memory), (∀ st ∈ later, st.retargets = false) →
        ∀ t ∈ turns later ((w.runLogged steps).setTarget (some "00:00:00:00:00:0B")).2,
          t.step.chooses = false →
            ∀ a ok, (.connect a, ok) ∈ t.calls → a = ⟨0, 0, 0, 0, 0, 11⟩ := by
  let radio : Logged Radio.Simulated := ⟨{ behaviour := { autoConnect := false } }, []⟩
  let store : Store.Memory :=
    ⟨{ known := (({} : AddressSet).insert ⟨0, 0, 0, 0, 0, 10⟩).insert ⟨0, 0, 0, 0, 0, 11⟩ }⟩
  let steps : List (Step Radio.Simulated Store.Memory) := [.act .start, .act (.connect none)]
  have hw : create {} none radio store = .ok _ := rfl
  have hd : Address.parse? "00:00:00:00:00:0B" = some ⟨0, 0, 0, 0, 0, 11⟩ := by decide
  refine ⟨_, steps, hw, hd, by decide, ?_, (attempts_follow_target_iff hw steps hd).2 ?_⟩
  · decide
  · decide

/-- Two remembered devices are being tried when a third one becomes the target. The attempt at the
first fails, and the second is tried. -/
theorem attempt_beside_target :
    ∃ (w : Endpoint (Logged Radio.Simulated) Store.Memory)
      (steps later : List (Step Radio.Simulated Store.Memory)),
      create {} none ⟨{ behaviour := { autoConnect := false } }, []⟩
        ⟨{ known := (({} : AddressSet).insert ⟨0, 0, 0, 0, 0, 10⟩).insert ⟨0, 0, 0, 0, 0, 11⟩ }⟩ =
          .ok w ∧
      Address.parse? "00:00:00:00:00:0D" = some ⟨0, 0, 0, 0, 0, 13⟩ ∧
      (∀ st ∈ later, st.retargets = false) ∧
      ∃ t ∈ turns later ((w.runLogged steps).setTarget (some "00:00:00:00:00:0D")).2,
        t.step.chooses = false ∧ (.connect ⟨0, 0, 0, 0, 0, 11⟩, true) ∈ t.calls := by
  let radio : Logged Radio.Simulated := ⟨{ behaviour := { autoConnect := false } }, []⟩
  let store : Store.Memory :=
    ⟨{ known := (({} : AddressSet).insert ⟨0, 0, 0, 0, 0, 10⟩).insert ⟨0, 0, 0, 0, 0, 11⟩ }⟩
  have hw : create {} none radio store = .ok _ := rfl
  refine ⟨_, [.act .start, .act (.connect none)], [.act (.handle .linkDown)], hw, by decide, ?_,
    _, List.mem_cons_self, rfl, ?_⟩
  · intro st hst
    rw [List.mem_singleton.1 hst]
    rfl
  · decide

end Endpoint

end VehicleLink
