import VehicleLink.Probe.Run
import VehicleLink.Proofs.Turns
import Mathlib.Data.List.Induction

/-!
# Rounds of the probe

A probe looks at the link once a round, whatever happened since the round before (`looks`). Commands
count as sent exactly if a look found the link ready and all looks since found it up
(`Look.sent_iff`). No link is up at two looks and down at one between them, so a link that was found
ready is never sent to again. But where one link is lost and the next one made between two looks, the
probe takes the two for one.
-/

namespace VehicleLink

variable {ρ σ : Type}

/-! ## Links that a run makes -/

namespace Endpoint

variable [Radio ρ] [DeviceStore σ]

/-- How many links a run establishes. -/
def linksMade (steps : List (Step ρ σ)) (w : Endpoint (Logged ρ) σ) : Nat :=
  (turns steps w).countP Turn.establishes

theorem linksMade_append (first later : List (Step ρ σ)) (w : Endpoint (Logged ρ) σ) :
    linksMade (first ++ later) w = linksMade first w + linksMade later (w.runLogged first) := by
  rw [linksMade, turns_append, List.countP_append]
  rfl

theorem runLogged_append (first later : List (Step ρ σ)) (w : Endpoint (Logged ρ) σ) :
    w.runLogged (first ++ later) = (w.runLogged first).runLogged later := by
  rw [runLogged, List.map_append]
  exact run_append ..

/-- Where there was no link and then there is one, one was made. -/
theorem linksMade_pos {steps : List (Step ρ σ)} {w : Endpoint (Logged ρ) σ} (hdown : w.isUp = false)
    (hup : (w.runLogged steps).isUp = true) : 0 < linksMade steps w := by
  induction steps generalizing w with
  | nil => exact absurd (hdown.symm.trans hup) Bool.false_ne_true
  | cons st steps ih =>
    have hcons : linksMade (st :: steps) w =
        linksMade [st] w + linksMade steps (w.step st.logged) := linksMade_append [st] steps w
    rw [hcons]
    cases hnext : (w.step st.logged).isUp with
    | false => exact Nat.add_pos_right _ (ih hnext hup)
    | true =>
      have hest : (⟨w, st⟩ : Turn ρ σ).establishes = true := by
        rw [Turn.establishes_eq, Bool.and_eq_true, Bool.not_eq_true']
        exact ⟨hdown, hnext⟩
      have hone : linksMade [st] w = 1 := List.countP_singleton.trans (if_pos hest)
      omega

/-- A consumer makes no link, and an event that is only raised makes none either. -/
theorem linksMade_of_actions {steps : List (Step ρ σ)} {w : Endpoint (Logged ρ) σ}
    (h : ∀ st ∈ steps, ∃ a, st = .act a ∧ (a.byConsumer = true ∨ ∃ e, a = .raise e)) :
    linksMade steps w = 0 := by
  refine List.countP_eq_zero.2 fun t ht hest => ?_
  obtain ⟨a, hstep, ha⟩ := h t.step (step_mem_of_mem_turns ht)
  have hevent : t.event? = none := by
    rcases ha with ha | ⟨e, rfl⟩
    · exact Turn.event?_of_consumer ha hstep
    · rw [Turn.event?, hstep]
  have hlink := (Turn.establishes_iff.1 hest).1
  rw [hevent] at hlink
  cases hlink

end Endpoint

namespace Probe

open Endpoint

/-! ## One look -/

/-- What the probe finds when it looks at the link. -/
structure Look (ρ σ : Type) where
  /-- How many links were made so far. -/
  link : Nat
  /-- Whether commands count as sent. -/
  sent : Bool
  endpoint : Endpoint (Logged ρ) σ

namespace Look

def isReady (l : Look ρ σ) : Bool := l.endpoint.transport.connection.isReady

def isUp (l : Look ρ σ) : Bool := l.endpoint.isUp

/-- Whether the commands are written in the round. -/
def sends (l : Look ρ σ) : Bool := l.isReady && !l.sent

def sendsTo (n : Nat) (l : Look ρ σ) : Bool := l.link = n && l.sends

theorem isUp_of_isReady {l : Look ρ σ} (h : l.isReady = true) : l.isUp = true := by
  unfold isReady at h
  unfold isUp Endpoint.isUp
  cases hc : l.endpoint.transport.connection with
  | connected peer ready teardown => rfl
  | _ => simp [hc, Connection.isReady] at h

/-- What a round consists of: each command is written once if commands are sent, and then what was
received is read. -/
def steps (s : Settings) (l : Look ρ σ) : List (Step ρ σ) :=
  (if l.sends then
    s.commands.map (fun command => .act (.write (Utf8.ofString command))) ++
      [.act (.raise (.received simulatedReply))]
  else []) ++ [.act (.read s.readChunk)]

variable [Radio ρ]

def round (s : Settings) (l : Look ρ σ) : List String × Bool × Endpoint (Logged ρ) σ :=
  Probe.round s l.sent l.endpoint

/-- After a round commands count as sent if the link is ready, or if it still is the one that they
were sent on as far as one can see. -/
theorem sent_round (s : Settings) (l : Look ρ σ) :
    (l.round s).2.1 = (l.isReady || l.sent && l.isUp) := by
  have hsent : (l.round s).2.1 = (sendCommands s.commands l.sent l.endpoint).1 := rfl
  rw [hsent, sendCommands]
  change (if (l.isReady && !l.sent) = true then _ else _ : Bool × Endpoint (Logged ρ) σ).1 = _
  cases hready : l.isReady with
  | false => rfl
  | true =>
    have hup : l.endpoint.transport.connection.isConnected = true := isUp_of_isReady hready
    cases l.sent with
    | false => rfl
    | true => exact hup

variable [DeviceStore σ]

theorem writeAll_eq_run (commands : List String) (w : Endpoint (Logged ρ) σ) :
    writeAll commands w =
      w.runLogged (commands.map fun command => .act (.write (Utf8.ofString command))) := by
  rw [runLogged, Endpoint.run, List.map_map, List.foldl_map]
  rfl

theorem round_eq_run (s : Settings) (l : Look ρ σ) :
    (l.round s).2.2 = l.endpoint.runLogged (l.steps s) := by
  have hread : (l.round s).2.2 =
      (sendCommands s.commands l.sent l.endpoint).2.runLogged [.act (.read s.readChunk)] := rfl
  rw [hread, sendCommands, steps, runLogged_append]
  refine congrArg (runLogged _) ?_
  change (if l.sends = true then _ else _ : Bool × Endpoint (Logged ρ) σ).2 = _
  cases l.sends with
  | false => rfl
  | true =>
    rw [if_pos rfl, if_pos rfl, runLogged_append, ← writeAll_eq_run]
    rfl

/-- The probe makes no link itself. -/
theorem linksMade_steps (s : Settings) (l : Look ρ σ) : linksMade (l.steps s) l.endpoint = 0 := by
  refine linksMade_of_actions fun st hst => ?_
  unfold steps at hst
  rcases List.mem_append.1 hst with hst | hst
  · split at hst
    · rcases List.mem_append.1 hst with hst | hst
      · obtain ⟨command, -, rfl⟩ := List.mem_map.1 hst
        exact ⟨_, rfl, .inl rfl⟩
      · exact ⟨_, List.mem_singleton.1 hst, .inr ⟨_, rfl⟩⟩
    · cases hst
  · exact ⟨_, List.mem_singleton.1 hst, .inl rfl⟩

theorem isUp_round (s : Settings) {l : Look ρ σ} (h : l.isUp = false) :
    (l.round s).2.2.isUp = false := by
  rw [round_eq_run]
  refine eq_false_of_ne_true fun hup => ?_
  have hpos := linksMade_pos h hup
  rw [linksMade_steps] at hpos
  cases hpos

end Look

/-! ## One look after the other -/

variable [Radio ρ] [DeviceStore σ]

/-- The looks of a probe, between which anything may happen: one after each run of the list. -/
def looks (s : Settings) :
    List (List (Step ρ σ)) → Nat → Bool → Endpoint (Logged ρ) σ → List (Look ρ σ)
  | [], _, _, _ => []
  | steps :: later, link, sent, w =>
    let l : Look ρ σ := ⟨link + linksMade steps w, sent, w.runLogged steps⟩
    l :: looks s later l.link (l.round s).2.1 (l.round s).2.2

section

variable {s : Settings} {between : List (List (Step ρ σ))} {link : Nat} {sent : Bool}
  {w : Endpoint (Logged ρ) σ} {before after : List (Look ρ σ)} {l x : Look ρ σ}

/-- Whether commands count as sent at a look is told by the looks before it, and the looks behind it
are those from its round on. -/
theorem looks_split (h : looks s between link sent w = before ++ l :: after) :
    l.sent = before.foldl (fun sent x => x.isReady || sent && x.isUp) sent ∧
      ∃ later, after = looks s later l.link (l.round s).2.1 (l.round s).2.2 := by
  induction before generalizing between link sent w with
  | nil =>
    cases between with
    | nil => cases h
    | cons steps later =>
      obtain ⟨rfl, rfl⟩ := List.cons.inj h
      exact ⟨rfl, later, rfl⟩
  | cons x before ih =>
    cases between with
    | nil => cases h
    | cons steps later =>
      obtain ⟨rfl, hrest⟩ := List.cons.inj h
      obtain ⟨hsent, hlater⟩ := ih hrest
      rw [Look.sent_round] at hsent
      exact ⟨hsent, hlater⟩

/-- Links are counted upwards, and who finds one where there was none finds a new one. -/
theorem link_of_mem (hx : x ∈ looks s between link sent w) :
    link ≤ x.link ∧ (w.isUp = false → x.isUp = true → link < x.link) := by
  induction between generalizing link sent w with
  | nil => cases hx
  | cons steps later ih =>
    rw [looks] at hx
    generalize hl : (⟨link + linksMade steps w, sent, w.runLogged steps⟩ : Look ρ σ) = l at hx
    have hlink : l.link = link + linksMade steps w := by rw [← hl]
    have hmade (hdown : w.isUp = false) (hup : l.isUp = true) : link < l.link := by
      have hpos : 0 < linksMade steps w := linksMade_pos hdown (by rwa [← hl] at hup)
      omega
    rcases List.mem_cons.1 hx with rfl | hx
    · exact ⟨by omega, hmade⟩
    · obtain ⟨hle, hlt⟩ := ih hx
      refine ⟨by omega, fun hdown hup => ?_⟩
      cases hlup : l.isUp with
      | true => exact Nat.lt_of_lt_of_le (hmade hdown hlup) hle
      | false =>
        have := hlt (Look.isUp_round s hlup) hup
        omega

theorem link_of_later (h : looks s between link sent w = before ++ l :: after) (hx : x ∈ after) :
    l.link ≤ x.link ∧ (l.isUp = false → x.isUp = true → l.link < x.link) := by
  obtain ⟨-, later, rfl⟩ := looks_split h
  obtain ⟨hle, hlt⟩ := link_of_mem hx
  exact ⟨hle, fun hdown => hlt (Look.isUp_round s hdown)⟩

/-- At some look the link was ready, and at all looks since it was up. -/
def SeenReady (before : List (Look ρ σ)) : Prop :=
  Since (fun _ x => x.isReady = true) (fun x => x.isUp = true) before

omit [Radio ρ] [DeviceStore σ] in
theorem foldl_eq_true_iff (before : List (Look ρ σ)) :
    before.foldl (fun sent x => x.isReady || sent && x.isUp) false = true ↔ SeenReady before := by
  induction before using List.reverseRecOn with
  | nil => exact iff_of_false Bool.false_ne_true not_since_nil
  | append_singleton before x ih =>
    rw [List.foldl_append, SeenReady, since_concat, ← SeenReady, ← ih]
    exact Bool.or_eq_true_iff.trans (or_congr_right Bool.and_eq_true_iff)

theorem Look.sent_iff (h : looks s between link false w = before ++ l :: after) :
    l.sent = true ↔ SeenReady before := by
  rw [(looks_split h).1]
  exact foldl_eq_true_iff before

/-- A link that was found ready is not sent to again. -/
theorem sends_of_later (h : looks s between link false w = before ++ l :: after)
    (hl : l.isReady = true) (hx : x ∈ after) (hlink : x.link = l.link) : x.sends = false := by
  refine eq_false_of_ne_true fun hsends => ?_
  obtain ⟨hready, hsent⟩ : x.isReady = true ∧ x.sent = false := by simpa [Look.sends] using hsends
  obtain ⟨meanwhile, rest, rfl⟩ := List.append_of_mem hx
  have hsplit : looks s between link false w = (before ++ l :: meanwhile) ++ x :: rest := by
    rw [h, List.append_assoc]
    rfl
  -- it was up all the time, since otherwise another link was made
  have hup : ∀ y ∈ meanwhile, y.isUp = true := by
    intro y hy
    refine eq_true_of_ne_false fun hdown => ?_
    obtain ⟨first, second, rfl⟩ := List.append_of_mem hy
    have hle : l.link ≤ y.link := (link_of_later h (by simp)).1
    have hbehind : looks s between link false w =
        (before ++ l :: first) ++ y :: (second ++ x :: rest) := by
      rw [h]
      simp
    have hlt : y.link < x.link :=
      (link_of_later hbehind (by simp)).2 hdown (Look.isUp_of_isReady hready)
    omega
  have hseen : SeenReady (before ++ l :: meanwhile) := ⟨before, l, meanwhile, rfl, hl, hup⟩
  rw [(Look.sent_iff hsplit).2 hseen] at hsent
  cases hsent

end

/-! ## The program's rounds -/

/-- The driver changes nothing about the radio but by calls. -/
theorem pump_eq_runLogged (w : Endpoint (Logged ρ) σ) :
    ∃ steps : List (Step ρ σ), w.pump.2 = w.runLogged steps := by
  obtain ⟨steps, hsteps, hrun⟩ := pumpUpTo_eq_run (w.workload + 1) w
  have hact : ∀ st ∈ steps, ∃ a, st = .act a := fun st hst =>
    (hsteps st hst).elim (⟨_, ·⟩) (⟨_, ·⟩)
  obtain ⟨steps, rfl⟩ : ∃ plain : List (Step ρ σ), steps = plain.map Step.logged := by
    clear hsteps hrun
    induction steps with
    | nil => exact ⟨[], rfl⟩
    | cons st steps ih =>
      obtain ⟨⟨a, rfl⟩, hrest⟩ := List.forall_mem_cons.1 hact
      obtain ⟨plain, rfl⟩ := ih hrest
      exact ⟨.act a :: plain, rfl⟩
  exact ⟨steps, hrun⟩

theorem drive_eq_runLogged (w : Endpoint (Logged ρ) σ) :
    ∃ steps : List (Step ρ σ), drive w = w.runLogged steps := by
  obtain ⟨first, hfirst⟩ := pump_eq_runLogged w
  obtain ⟨second, hsecond⟩ := pump_eq_runLogged w.pump.2.poll
  refine ⟨first ++ [.act (.pollAt w.pump.2.now)] ++ second, ?_⟩
  rw [drive, hsecond, runLogged_append, runLogged_append, ← hfirst]
  rfl

theorem rounds_eq_looks_of_run (s : Settings) (n link : Nat) (sent : Bool)
    (first : List (Step ρ σ)) (w : Endpoint (Logged ρ) σ) :
    ∃ between : List (List (Step ρ σ)), between.length = n ∧
      (rounds s n sent (w.runLogged first)).1 =
        (looks s between link sent w).flatMap fun l => (l.round s).1 := by
  induction n generalizing link sent first w with
  | zero => exact ⟨[], rfl, rfl⟩
  | succ n ih =>
    obtain ⟨steps, hsteps⟩ := drive_eq_runLogged (w.runLogged first)
    let l : Look ρ σ :=
      ⟨link + linksMade (first ++ steps) w, sent, w.runLogged (first ++ steps)⟩
    have hl : drive (w.runLogged first) = l.endpoint := by rw [hsteps, ← runLogged_append]
    -- that time passes after a round counts with what happens before the next one
    obtain ⟨between, hlength, hrest⟩ :=
      ih l.link (l.round s).2.1 [.act (.wait s.tick)] (l.round s).2.2
    refine ⟨(first ++ steps) :: between, by simp [hlength], ?_⟩
    rw [looks, List.flatMap_cons, ← hrest, rounds, turn, hl]
    rfl

/-- The program is such a probe: between its rounds the driver works and time passes. -/
theorem rounds_eq_looks (s : Settings) (n : Nat) (w : Endpoint (Logged ρ) σ) :
    ∃ between : List (List (Step ρ σ)), between.length = n ∧
      (rounds s n false w).1 = (looks s between 0 false w).flatMap fun l => (l.round s).1 :=
  rounds_eq_looks_of_run s n 0 false [] w

/-! ## The commands of a link -/

omit [Radio ρ] [DeviceStore σ] in
theorem countP_sendsTo_eq_zero {n : Nat} {ls : List (Look ρ σ)}
    (h : ∀ l ∈ ls, l.link = n → l.sends = false) : ls.countP (Look.sendsTo n) = 0 := by
  refine List.countP_eq_zero.2 fun l hl hsends => ?_
  obtain ⟨hlink, hsends⟩ : l.link = n ∧ l.sends = true := by simpa [Look.sendsTo] using hsends
  rw [h l hl hlink] at hsends
  cases hsends

/-- No link is sent to twice. -/
theorem countP_sendsTo_le_one (s : Settings) (between : List (List (Step ρ σ))) (link : Nat)
    (w : Endpoint (Logged ρ) σ) (n : Nat) :
    (looks s between link false w).countP (Look.sendsTo n) ≤ 1 := by
  by_cases hnone : ∀ l ∈ looks s between link false w, l.link = n → l.sends = false
  · rw [countP_sendsTo_eq_zero hnone]
    exact Nat.zero_le 1
  · push Not at hnone
    obtain ⟨l, hl, rfl, hsends⟩ := hnone
    obtain ⟨before, after, hls⟩ := List.append_of_mem hl
    have hready : l.isReady = true := (Bool.and_eq_true_iff.1 (eq_true_of_ne_false hsends)).1
    have hbefore : before.countP (Look.sendsTo l.link) = 0 := by
      refine countP_sendsTo_eq_zero fun x hx hlink => eq_false_of_ne_true fun hxsends => hsends ?_
      obtain ⟨first, second, rfl⟩ := List.append_of_mem hx
      have hsplit : looks s between link false w = first ++ x :: (second ++ l :: after) := by
        rw [hls]
        simp
      have hxready : x.isReady = true := (Bool.and_eq_true_iff.1 hxsends).1
      exact sends_of_later hsplit hxready (by simp) hlink.symm
    have hafter : after.countP (Look.sendsTo l.link) = 0 :=
      countP_sendsTo_eq_zero fun x hx hlink => sends_of_later hls hready hx hlink
    rw [hls, List.countP_append, List.countP_cons, hbefore, hafter]
    split <;> omega

/-- A probe, with anything that happens between its looks. In a round the commands are written, each
once, or none of them is. No link is sent to twice. And a link that is found ready is sent to at the
first look that finds it so or never; it is sent to exactly unless an earlier look found a link
ready, and all looks since found a link up. -/
theorem commands_once_iff (s : Settings) (between : List (List (Step ρ σ)))
    (w : Endpoint (Logged ρ) σ) :
    let ls := looks s between 0 false w
    (∀ l ∈ ls, (l.round s).2.2 = l.endpoint.runLogged (l.steps s)) ∧
    (∀ n, ls.countP (Look.sendsTo n) ≤ 1) ∧
    ∀ before l after, ls = before ++ l :: after → l.isReady = true →
      (∀ x ∈ before, x.link = l.link → x.isReady = false) →
      after.countP (Look.sendsTo l.link) = 0 ∧
      ((before ++ [l]).countP (Look.sendsTo l.link) = 1 ↔ ¬ SeenReady before) := by
  intro ls
  refine ⟨fun l _ => l.round_eq_run s, countP_sendsTo_le_one s between 0 w, ?_⟩
  intro before l after hls hready hfirst
  have hbefore : before.countP (Look.sendsTo l.link) = 0 :=
    countP_sendsTo_eq_zero fun x hx hlink => by simp [Look.sends, hfirst x hx hlink]
  refine ⟨countP_sendsTo_eq_zero fun x hx hlink => sends_of_later hls hready hx hlink, ?_⟩
  rw [List.countP_append, hbefore, List.countP_singleton, ← Look.sent_iff hls]
  simp [Look.sendsTo, Look.sends, hready]

/-- The probe looks, and sees the link down, between the loss of the first link and the second one:
both get the commands. -/
theorem commands_once_of_seen_loss :
    ∃ (s : Settings) (between : List (List (Step Radio.Simulated Store.Memory)))
      (w : Endpoint (Logged Radio.Simulated) Store.Memory),
      let ls := looks s between 0 false w
      s.commands = ["version"] ∧ ls.map Look.link = [1, 1, 2, 2] ∧
        ls.map Look.isReady = [true, false, true, true] ∧
        (ls.take 1).countP (Look.sendsTo 1) = 1 ∧ (ls.drop 1).countP (Look.sendsTo 1) = 0 ∧
        (ls.take 3).countP (Look.sendsTo 2) = 1 ∧ (ls.drop 3).countP (Look.sendsTo 2) = 0 := by
  let s : Settings :=
    { address := none, storePath := "devices.cbor", deviceName := "OpenXC", automaticScan := true
      writeDelay := Duration.ofMillis 50, scanWindow := Duration.ofMillis 10000
      pollInterval := Duration.ofMillis 5000, fastPollInterval := Duration.ofMillis 1000
      tickInterval := Duration.ofMillis 100, runFor := none, readChunk := 512
      commands := ["version"] }
  let next : Step Radio.Simulated Store.Memory := .act .next
  let poll (millis : Nat) : Step Radio.Simulated Store.Memory :=
    .act (.pollAt (Duration.ofMillis millis))
  let between : List (List (Step Radio.Simulated Store.Memory)) :=
    [[.act .start, poll 0, next, next], [next, next, .act (.raise .linkDown), next],
      [poll 2000, next, next], [next, next]]
  let w : Endpoint (Logged Radio.Simulated) Store.Memory :=
    fresh s.link none {} ⟨simulatedRadio, []⟩ {}
  let ls := looks s between 0 false w
  have hsplit (i : Fin ls.length) : ls = ls.take i ++ ls.get i :: ls.drop (i + 1) := by
    rw [List.get_eq_getElem, ← List.drop_eq_getElem_cons i.isLt, List.take_append_drop]
  have htake (i : Fin ls.length) : ls.take i ++ [ls.get i] = ls.take (i + 1) :=
    List.take_append_getElem i.isLt
  have h := (commands_once_iff s between w).2.2
  let first : Fin ls.length := ⟨0, by decide⟩
  let third : Fin ls.length := ⟨2, by decide⟩
  obtain ⟨hlater₁, hiff₁⟩ := h _ _ _ (hsplit first) (by decide) (by decide)
  obtain ⟨hlater₂, hiff₂⟩ := h _ _ _ (hsplit third) (by decide) (by decide)
  have hlink₁ : (ls.get first).link = 1 := by decide
  have hlink₂ : (ls.get third).link = 2 := by decide
  rw [htake, hlink₁] at hiff₁
  rw [htake, hlink₂] at hiff₂
  rw [hlink₁] at hlater₁
  rw [hlink₂] at hlater₂
  have hseen : ¬ SeenReady (ls.take 2) := by
    rw [← foldl_eq_true_iff]
    decide
  exact ⟨s, between, w, rfl, by decide, by decide, hiff₁.2 not_since_nil, hlater₁,
    hiff₂.2 hseen, hlater₂⟩

/-- The first link is lost and the second one made between two looks: the second one is ready but
gets no commands. -/
theorem commands_missed_on_next_link :
    let s : Settings :=
      { address := none, storePath := "devices.cbor", deviceName := "OpenXC", automaticScan := true
        writeDelay := Duration.ofMillis 50, scanWindow := Duration.ofMillis 10000
        pollInterval := Duration.ofMillis 5000, fastPollInterval := Duration.ofMillis 1000
        tickInterval := Duration.ofMillis 100, runFor := none, readChunk := 512
        commands := ["version"] }
    let next : Step Radio.Simulated Store.Memory := .act .next
    let poll (millis : Nat) : Step Radio.Simulated Store.Memory :=
      .act (.pollAt (Duration.ofMillis millis))
    let w : Endpoint (Logged Radio.Simulated) Store.Memory :=
      fresh s.link none {} ⟨simulatedRadio, []⟩ {}
    let ls := looks s
      [[.act .start, poll 0, next, next],
        [next, next, .act (.raise .linkDown), next, poll 2000, next, next], [next, next]] 0 false w
    ls.map Look.link = [1, 2, 2] ∧ ls.map Look.isReady = [true, true, true] ∧
      ls.countP (Look.sendsTo 1) = 1 ∧ ls.countP (Look.sendsTo 2) = 0 := by
  decide

end Probe

end VehicleLink
