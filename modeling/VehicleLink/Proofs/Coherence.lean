import VehicleLink.Proofs.Cancellation
import Mathlib.Data.List.DropRight

/-!
# Coherence

What the parts of a transport say of each other between any two operations, whatever was called,
reported and answered (`Coherent`), and of the fragments on their way, of which there is at most one
since the last attempt (`Entry.Lawful.sends_le`). Some of it holds of every connection and queue by
how they are kept; of a connection kept in single fields it is `Connection.reachable_iff_agree`, and
of fragments that are counted `FragmentQueue.counted_bounds`.

A search for an attempt gives up in two places: where there is a link or an attempt already, and
where the connection cannot begin an attempt that the radio took up. Neither is ever reached. To say
so, the operations that search are taken with another search in its place (`actBy`); one that takes a
detour at these two places, whatever it does there, makes no difference (`actBy_searchBy`).
-/

namespace VehicleLink

theorem Connection.teardownRequested_of_isWanted {c : Connection} (h : c.isWanted = true) :
    c.teardownRequested = false := by
  cases c with
  | disconnected => rfl
  | connecting p teardown => simpa [isWanted, teardownRequested] using h
  | connected p ready teardown => simpa [isWanted, teardownRequested] using h

/-! ## Fragments on their way -/

namespace Entry

def dials : Entry → Bool
  | .called (.connect _) _ => true
  | _ => false

/-- A fragment was handed to the radio, which took it. -/
def sends : Entry → Bool
  | .called (.write ..) true => true
  | _ => false

def reports : Entry → Bool
  | .handled (.writeComplete _) => true
  | _ => false

/-- What happened since the last attempt. -/
def sinceDialed (h : List Entry) : List Entry := h.rtakeWhile fun x => !x.dials

theorem sinceDialed_of_dials {x : Entry} (hx : x.dials = true) (h : List Entry) :
    sinceDialed (h ++ [x]) = [] := by
  rw [sinceDialed, List.rtakeWhile_concat_neg]
  simp [hx]

theorem sinceDialed_concat {x : Entry} (hx : x.dials = false) (h : List Entry) :
    sinceDialed (h ++ [x]) = sinceDialed h ++ [x] := by
  rw [sinceDialed, List.rtakeWhile_concat_pos]
  · rfl
  · simp [hx]

theorem settles_eq (x : Entry) : x.settles = (x.dials || x.reports) := by
  unfold settles dials reports
  split <;> simp_all

theorem sends_of_taken {x : Entry} :
    (∃ k fragment, x = .called (.write k fragment) true) ↔ x.sends = true := by
  constructor
  · rintro ⟨k, fragment, rfl⟩
    rfl
  · intro h
    unfold sends at h
    split at h
    · rename_i k fragment
      exact ⟨k, fragment, rfl⟩
    · cases h

/-- Since the last attempt the radio took at most one fragment more than it reported on, and none
more where no fragment is unanswered. -/
theorem Lawful.sends_le {h : List Entry} (hl : Lawful h) :
    (sinceDialed h).countP sends ≤ (sinceDialed h).countP reports + 1 ∧
      (¬ Unanswered h → (sinceDialed h).countP sends ≤ (sinceDialed h).countP reports) := by
  induction h using List.reverseRecOn with
  | nil => simp [sinceDialed]
  | append_singleton h x ih =>
    obtain ⟨hl, hallowed⟩ := lawful_concat.1 hl
    obtain ⟨hone, hnone⟩ := ih hl
    cases hdials : x.dials with
    | true => simp [sinceDialed_of_dials hdials]
    | false =>
      rw [sinceDialed_concat hdials, List.countP_append, List.countP_append,
        List.countP_singleton, List.countP_singleton]
      cases hsends : x.sends with
      | true =>
        -- a fragment is only sent where the one before it was answered
        obtain ⟨k, fragment, rfl⟩ := sends_of_taken.2 hsends
        have hanswered := hnone (hallowed.2 rfl)
        refine ⟨by simpa [reports] using hanswered, fun hun => ?_⟩
        exact absurd (Since.of_last ⟨k, fragment, rfl⟩) hun
      | false =>
        cases hreports : x.reports with
        | true => exact ⟨by simp; omega, fun _ => by simpa using hone⟩
        | false =>
          refine ⟨by simpa using hone, fun hun => ?_⟩
          have hbefore : ¬ Unanswered h := fun hh =>
            hun (hh.later (by rw [settles_eq, hdials, hreports]; rfl))
          simpa using hnone hbefore

end Entry

namespace Endpoint

variable {ρ σ : Type} [Radio ρ] {s : LinkSettings} {w : Endpoint ρ σ}

/-! ## The parts of a transport -/

omit [Radio ρ] in
/-- What the parts of a transport with the settings `s` say of each other. -/
structure Coherent (s : LinkSettings) (t : Transport) : Prop where
  peer : t.connection.peer?.isSome = true ↔ t.connection.phase ≠ .disconnected
  ready : t.connection.isReady = true →
    t.connection.phase = .connected ∧ t.connection.teardownRequested = false
  teardown : t.connection.teardownRequested = true → t.connection.phase ≠ .disconnected
  pending : t.outbound.queue.pending ≤ 1
  queued : t.outbound.queue.queued ≤ s.outboundCapacity
  /-- Without a link nothing is queued, in flight or buffered. -/
  unlinked : t.connection.phase ≠ .connected →
    t.outbound.queue.queued = 0 ∧ t.outbound.queue.pending = 0 ∧ t.inbound.available = 0
  waiting : t.candidates ≠ [] →
    t.connection.phase = .connecting ∧ t.connection.teardownRequested = false

omit [Radio ρ] in
theorem Reached.coherent {w : Endpoint (Logged ρ) σ} (h : Reached s w) : Coherent s w.transport := by
  obtain ⟨es, hrecorded⟩ := h.recorded
  have hdown (hphase : w.transport.connection.phase ≠ .connected) :
      w.transport.connection.isConnected = false := by
    cases hc : w.transport.connection with
    | connected p r t => exact absurd (by rw [hc]; rfl) hphase
    | _ => rfl
  exact
    { peer := by cases w.transport.connection <;> simp [Connection.peer?, Connection.phase]
      ready := fun hready => by
        refine ⟨?_, Connection.teardownRequested_of_isWanted (hrecorded.notified hready).1⟩
        cases hc : w.transport.connection with
        | connected p r t => rfl
        | _ => rw [hc] at hready; cases hready
      teardown := fun hteardown hphase => by
        cases hc : w.transport.connection with
        | disconnected => rw [hc] at hteardown; cases hteardown
        | _ => rw [hc] at hphase; cases hphase
      pending := FragmentQueue.pending_le_one _
      queued := h.sound.fits
      unlinked := fun hphase => by
        refine ⟨?_, ?_, ?_⟩
        · simp [FragmentQueue.queued, h.sound.unqueued (hdown hphase)]
        · simp [FragmentQueue.pending, h.sound.unsent (hdown hphase)]
        · have hbytes : w.transport.inbound.bytes = [] := h.unread (hdown hphase)
          simp [Inbound.available, hbytes]
      waiting := fun hne => by
        obtain ⟨p, hp⟩ := h.sound.waiting hne
        rw [hp]
        exact ⟨rfl, rfl⟩ }

/-! ## Searches -/

/-- What a search does in the two places where it gives up. -/
structure Detours (ρ σ : Type) where
  /-- There is a link or an attempt already. -/
  busy : Endpoint ρ σ → Endpoint ρ σ
  /-- The connection cannot begin an attempt that the radio took up. -/
  stray : TransitionError → Endpoint ρ σ → Endpoint ρ σ

/-- Tries candidates in order, with detours. -/
def tryCandidatesBy (d : Detours ρ σ) : List Candidate → Endpoint ρ σ → Endpoint ρ σ
  | [], w => w.update fun t => { t with candidates := [] }
  | c :: rest, w =>
    let w := w.update fun t => { t with candidates := rest }
    if w.transport.connection.phase ≠ .disconnected then d.busy w
    else
      let w := w.update fun t =>
        { t with tally := { t.tally with attempts := t.tally.attempts + 1 } }
      let (accepted, w) := w.submit (.connect c.address)
      if accepted then
        match w.transport.connection.begin c.address with
        | .ok connection => w.update fun t => { t with connection }
        | .error e => d.stray e w
      else tryCandidatesBy d rest (w.update (Transport.noteError (.connectFailed c.address)))

/-- Without detours the search is that of `tryCandidates`. -/
theorem tryCandidatesBy_stay (cs : List Candidate) (w : Endpoint ρ σ) :
    tryCandidatesBy ⟨id, fun _ => id⟩ cs w = tryCandidates cs w := by
  induction cs generalizing w with
  | nil => rfl
  | cons c rest ih =>
    rw [tryCandidatesBy, tryCandidates]
    dsimp only
    split
    · rfl
    · split
      · rfl
      · exact ih _

/-- From a disconnected state no detour is taken. -/
theorem tryCandidatesBy_of_disconnected (d : Detours ρ σ) (cs : List Candidate)
    (hw : w.transport.connection = .disconnected) :
    tryCandidatesBy d cs w = tryCandidates cs w := by
  rw [← tryCandidatesBy_stay]
  induction cs generalizing w with
  | nil => rfl
  | cons c rest ih =>
    have hphase : ¬ w.transport.connection.phase ≠ .disconnected := by
      simp [hw, Connection.phase]
    have hbegin : (w.attempt c rest).2.transport.connection.begin c.address =
        .ok (.connecting c.address false) := by
      show w.transport.connection.begin c.address = _
      rw [hw]
      rfl
    unfold tryCandidatesBy
    refine (if_neg hphase).trans (Eq.trans ?_ (if_neg hphase).symm)
    refine ite_congr rfl (fun _ => ?_) fun _ => ih (w := w.turnedAway c rest) hw
    split
    · rfl
    · rename_i e herror
      cases herror.symm.trans hbegin

def searchBy (d : Detours ρ σ) (w : Endpoint ρ σ) : Endpoint ρ σ :=
  tryCandidatesBy d w.transport.candidates w

section Actions

variable [DeviceStore σ] (search : Endpoint ρ σ → Endpoint ρ σ)

def connectBy (target : Option Address) (w : Endpoint ρ σ) : Endpoint ρ σ :=
  if w.transport.running then
    if w.transport.isBusy then w
    else
      let w := w.update fun t => { t with candidates := [] }
      search (w.follow (planFor target w.transport))
  else w

def pollAtBy (instant : Nanos) (w : Endpoint ρ σ) : Endpoint ρ σ :=
  if w.transport.running then
    let (due, w) := w.claimPoll instant
    if due then w.connectBy search none else w
  else w

omit [Radio ρ] [DeviceStore σ] in
def onLinkDownBy (w : Endpoint ρ σ) : Endpoint ρ σ :=
  let (outcome, connection) := w.transport.connection.down
  let gone := w.update fun t =>
    { t with connection, outbound := t.outbound.reset, inbound := t.inbound.clear }
  match outcome with
  | .ignored => w
  | .attemptFailed peer => search (gone.update (Transport.noteError (.connectFailed peer)))
  | .attemptCancelled _ => gone.update fun t => { t with candidates := [] }
  | .lost _ => gone.update (Transport.setFast true)
  | .closed _ => gone

def handleBy (e : Event) (w : Endpoint ρ σ) : Endpoint ρ σ :=
  match e with
  | .linkDown => w.onLinkDownBy search
  | e => w.handle e

def handleNextBy (w : Endpoint ρ σ) : Endpoint ρ σ :=
  match w.inbox with
  | [] => w
  | e :: rest => ({ w with inbox := rest }).handleBy search e

/-- An action with `search` in place of `attemptNext`. -/
def actBy (a : Action) (w : Endpoint ρ σ) : Endpoint ρ σ :=
  match a with
  | .connect target => w.connectBy search target
  | .pollAt instant => w.pollAtBy search instant
  | .handle e => w.handleBy search e
  | .next => w.handleNextBy search
  | a => w.act a

theorem handleBy_attemptNext (e : Event) (w : Endpoint ρ σ) :
    w.handleBy attemptNext e = w.handle e := by
  cases e <;> rfl

/-- An action is what it is with `attemptNext` itself. -/
theorem actBy_attemptNext (a : Action) (w : Endpoint ρ σ) : w.actBy attemptNext a = w.act a := by
  cases a with
  | handle e => exact handleBy_attemptNext e w
  | next =>
    change w.handleNextBy attemptNext = w.handleNext
    rw [handleNextBy]
    cases hinbox : w.inbox with
    | nil => exact (handleNext_nil hinbox).symm
    | cons e rest => exact (handleBy_attemptNext e _).trans (handleNext_cons hinbox).symm
  | _ => rfl

variable {search} (hsearch : ∀ v : Endpoint ρ σ, v.transport.connection = .disconnected →
  search v = v.attemptNext)

include hsearch

theorem connectBy_eq (target : Option Address) (w : Endpoint ρ σ) :
    w.connectBy search target = w.connect target := by
  rw [connectBy, connect, connectBody]
  refine ite_congr rfl (fun _ => ite_congr rfl (fun _ => rfl) fun hbusy => ?_) fun _ => rfl
  obtain ⟨u, hu, heq⟩ := follow_eq (planFor target w.transport) w
  refine hsearch ((w.queueing []).follow (planFor target w.transport)) ?_
  rw [heq]
  exact hu.link.connection.trans (disconnected_of_not_busy hbusy)

theorem pollAtBy_eq (instant : Nanos) (w : Endpoint ρ σ) :
    w.pollAtBy search instant = w.pollAt instant := by
  rw [pollAtBy, pollAt]
  refine ite_congr rfl (fun _ => ?_) fun _ => rfl
  exact ite_congr rfl (fun _ => connectBy_eq hsearch none _) fun _ => rfl

theorem onLinkDownBy_eq (w : Endpoint ρ σ) : w.onLinkDownBy search = w.onLinkDown := by
  unfold onLinkDownBy onLinkDown
  cases hc : w.transport.connection with
  | disconnected => rfl
  | connected p r t => cases t <;> rfl
  | connecting p teardown =>
    cases teardown with
    | true => rfl
    | false => exact hsearch (w.gone.update (Transport.noteError (.connectFailed p))) rfl

theorem handleBy_eq (e : Event) (w : Endpoint ρ σ) : w.handleBy search e = w.handle e := by
  cases e with
  | linkDown => exact onLinkDownBy_eq hsearch w
  | _ => rfl

/-- No action searches with a link or an attempt under way. -/
theorem actBy_eq (a : Action) (w : Endpoint ρ σ) : w.actBy search a = w.act a := by
  rw [← actBy_attemptNext]
  cases a with
  | connect target => exact connectBy_eq hsearch target w
  | pollAt instant => exact pollAtBy_eq hsearch instant w
  | handle e => exact (handleBy_eq hsearch e w).trans (handleBy_attemptNext e w).symm
  | next =>
    change w.handleNextBy search = w.handleNextBy attemptNext
    unfold handleNextBy
    split
    · rfl
    · exact (handleBy_eq hsearch _ _).trans (handleBy_attemptNext _ _).symm
  | _ => rfl

end Actions

/-- Whatever a search does where it gives up, no action does anything else. -/
theorem actBy_searchBy [DeviceStore σ] (d : Detours ρ σ) (a : Action) (w : Endpoint ρ σ) :
    w.actBy (searchBy d) a = w.act a :=
  actBy_eq (fun _ hv => tryCandidatesBy_of_disconnected d _ hv) a w

/-! ## Runs -/

variable [DeviceStore σ]

/-- At any moment of any run of a transport that was created its parts are coherent, at most one of
the fragments that the radio took since the last attempt is not reported on, and the next action
does the same whatever a search would do where it gives up. -/
theorem coherent_run {w : Endpoint (Logged ρ) σ} {target : Option String} {radio : Logged ρ}
    {store : σ} (hw : create s target radio store = .ok w) (steps : List (Step ρ σ)) :
    let h := history steps w
    let u := w.runLogged steps
    Coherent s u.transport ∧
    (Entry.sinceDialed h).countP Entry.sends ≤ (Entry.sinceDialed h).countP Entry.reports + 1 ∧
    ∀ (d : Detours (Logged ρ) σ) (a : Action), u.actBy (searchBy d) a = u.act a := by
  intro h u
  have hreached : Reached s u := reached_run (reached_create hw) steps
  have hrecorded : Recorded h u.transport := recorded_run (recorded_create hw) steps
  exact ⟨hreached.coherent, hrecorded.tracked.lawful.sends_le.1, fun d a => actBy_searchBy d a u⟩

/-- The first of two remembered devices is being tried. When the attempt fails the second is tried,
and nothing but the search decides so. -/
theorem coherent_run_of_fallback :
    ∃ (w : Endpoint (Logged Radio.Simulated) Store.Memory)
      (steps : List (Step Radio.Simulated Store.Memory)),
      create {} none ⟨{ behaviour := { autoConnect := false } }, []⟩
        ⟨{ known := (({} : AddressSet).insert ⟨0, 0, 0, 0, 0, 10⟩).insert ⟨0, 0, 0, 0, 0, 11⟩ }⟩ =
          .ok w ∧
      (w.runLogged steps).transport.connection = .connecting ⟨0, 0, 0, 0, 0, 10⟩ false ∧
      (w.runLogged steps).transport.candidates ≠ [] ∧
      Coherent {} (w.runLogged steps).transport ∧
      (w.runLogged steps).actBy (searchBy ⟨start, fun _ => start⟩) (.handle .linkDown) =
        (w.runLogged steps).act (.handle .linkDown) ∧
      ((w.runLogged steps).act (.handle .linkDown)).transport.connection =
        .connecting ⟨0, 0, 0, 0, 0, 11⟩ false := by
  let radio : Logged Radio.Simulated := ⟨{ behaviour := { autoConnect := false } }, []⟩
  let store : Store.Memory :=
    ⟨{ known := (({} : AddressSet).insert ⟨0, 0, 0, 0, 0, 10⟩).insert ⟨0, 0, 0, 0, 0, 11⟩ }⟩
  let steps : List (Step Radio.Simulated Store.Memory) := [.act .start, .act (.connect none)]
  have hw : create {} none radio store = .ok _ := rfl
  obtain ⟨hcoherent, -, hsearch⟩ := coherent_run hw steps
  exact ⟨_, steps, hw, by decide, by decide, hcoherent, hsearch _ _, by decide⟩

end Endpoint

end VehicleLink
