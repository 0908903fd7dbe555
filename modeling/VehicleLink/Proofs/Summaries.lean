import VehicleLink.Proofs.RankingOrder
import VehicleLink.Proofs.Surroundings
import VehicleLink.Radio.Simulated
import Mathlib.Data.List.Induction

/-!
# Summaries of devices

Every device ever seen is listed with a summary, its name with the address behind it. A sighting
writes the summary of its device, and a ranking those of all its candidates: under the name that the
bonded list reports, or else, without a report, under what is at hand (`Turn.relisted?`): the bare
address of a remembered device, or the name of an older sighting.

So the name that a device was last reported with stays in its summary exactly if no ranking lists
the device without a report under another name (`named_iff`). One that a scan reported last keeps
its name exactly if no ranking finds it remembered (`reported_name_kept_iff`).
-/

namespace VehicleLink

theorem Device.label_inj {n m : String} {a : Address} : label n a = label m a ↔ n = m := by
  simp [label, String.append_assoc]

theorem AddressMap.get?_listing (cs : List Candidate) (h : (cs.map (·.address)).Nodup)
    (m : AddressMap String) (a : Address) :
    (cs.foldl (fun m c => m.insert c.address c.text) m).get? a =
      ((cs.find? (·.address == a)).map Candidate.text).or (m.get? a) := by
  induction cs generalizing m with
  | nil => rfl
  | cons c rest ih =>
    obtain ⟨hother, hrest⟩ := List.nodup_cons.1 h
    rw [List.foldl_cons, ih hrest, List.find?_cons, get?_insert]
    by_cases hc : c.address = a
    · have hnone : rest.find? (·.address == a) = none := by
        rw [List.find?_eq_none]
        intro d hd heq
        exact hother (List.mem_map.2 ⟨d, hd, by simpa [hc] using heq⟩)
      simp [hc, hnone]
    · have hbeq : (c.address == a) = false := by simpa using hc
      simp [hbeq, Ne.symm hc]

namespace Ranking

variable (start : String) (bonded observed : List Device) (devices : DeviceSet)

/-- The entry for an address in a ranking is the one that its sources give. -/
theorem find?_order (a : Address) :
    (order start bonded observed devices).find? (·.address == a) =
      first? start bonded observed devices a := by
  have hranking : IsRanking start bonded observed devices
      (order start bonded observed devices) := isRanking_order
  cases hfind : (order start bonded observed devices).find? (·.address == a) with
  | some c =>
    obtain rfl : c.address = a := by simpa using List.find?_some hfind
    exact (hranking.entries c (List.mem_of_find?_eq_some hfind)).symm
  | none =>
    have hno : ¬ Eligible start bonded observed devices a := by
      rw [← hranking.complete, Candidate.mem_addresses_iff, hfind]
      simp
    rw [eligible_iff] at hno
    exact (by simpa using hno : first? start bonded observed devices a = none).symm

variable {start bonded observed devices} in
theorem address_of_first? {a : Address} {c : Candidate}
    (h : first? start bonded observed devices a = some c) : c.address = a := by
  rw [← find?_order] at h
  simpa using List.find?_some h

/-- What the bonded list has no entry for is listed as without one. -/
theorem first?_of_unpaired {a : Address}
    (h : (bonded.find? fun d => d.address == a && (d.nameBegins start && d.link == .le)) = none) :
    first? start bonded observed devices a = first? start [] observed devices a := by
  rw [first?, h]
  rfl

end Ranking

/-! ## Observed devices -/

namespace Transport

theorem addresses_observe (d : Device) (l : List Device) :
    (observe d l).map (·.address) =
      if d.address ∈ l.map (·.address) then l.map (·.address)
      else l.map (·.address) ++ [d.address] := by
  induction l with
  | nil => rfl
  | cons e rest ih =>
    rw [observe]
    by_cases he : e.address = d.address
    · simp [he]
    · rw [if_neg he, List.map_cons, ih]
      simp [Ne.symm he]
      split <;> rfl

theorem nodup_observe {d : Device} {l : List Device} (h : (l.map (·.address)).Nodup) :
    ((observe d l).map (·.address)).Nodup := by
  rw [addresses_observe]
  split
  · exact h
  · rename_i hnew
    rw [← List.concat_eq_append]
    exact h.concat hnew

/-- A sighting takes the place of what was observed of its device, and of nothing else. -/
theorem mem_observe {d e : Device} {l : List Device} (h : (l.map (·.address)).Nodup) :
    e ∈ observe d l ↔ e = d ∨ e ∈ l ∧ e.address ≠ d.address := by
  induction l with
  | nil => simp [observe]
  | cons c rest ih =>
    obtain ⟨hother, hrest⟩ := List.nodup_cons.1 h
    rw [observe]
    by_cases hc : c.address = d.address
    · have hne : ∀ x ∈ rest, x.address ≠ d.address := fun x hx heq =>
        hother (List.mem_map.2 ⟨x, hx, heq.trans hc.symm⟩)
      rw [if_pos hc, List.mem_cons, List.mem_cons]
      constructor
      · rintro (rfl | he)
        · exact .inl rfl
        · exact .inr ⟨.inr he, hne e he⟩
      · rintro (rfl | ⟨rfl | he, hed⟩)
        · exact .inl rfl
        · exact absurd hc hed
        · exact .inr he
    · rw [if_neg hc, List.mem_cons, List.mem_cons, ih hrest]
      constructor
      · rintro (rfl | rfl | ⟨he, hed⟩)
        · exact .inr ⟨.inl rfl, hc⟩
        · exact .inl rfl
        · exact .inr ⟨.inr he, hed⟩
      · rintro (rfl | ⟨rfl | he, hed⟩)
        · exact .inr (.inl rfl)
        · exact .inl rfl
        · exact .inr (.inr ⟨he, hed⟩)

end Transport

/-! ## Turns -/

namespace Turn

open Endpoint

variable {ρ σ : Type} [Radio ρ] [DeviceStore σ] {t : Turn ρ σ} {a : Address} {d : Device}
  {n : String}

/-- The report on a device that the turn receives: a sighting, or an entry of the bonded list that
a ranking takes up. -/
def report? (a : Address) (t : Turn ρ σ) : Option Device :=
  match t.event? with
  | some (.scanResult d) => if d.address = a then some d else none
  | _ =>
    if t.lists then
      (Radio.bonded t.before.radio).find? fun d =>
        d.address == a && (d.nameBegins t.before.nameStart && d.link == .le)
    else none

/-- The name under which a ranking lists a device of which it has no report. -/
def relisted? (a : Address) (t : Turn ρ σ) : Option String :=
  if t.lists then
    (Ranking.first? t.before.nameStart [] t.before.transport.observed t.before.transport.devices
      a).map (·.name)
  else none

/-- A ranking lists the entries that its sources give. -/
theorem discovered_of_lists {t : Turn ρ σ}
    (h : t.after.transport.discovered =
      (t.before.ranked t.before.nameStart).foldl (fun m c => m.insert c.address c.text)
        t.before.transport.discovered) (a : Address) :
    t.after.transport.discovered.get? a =
      ((Ranking.first? t.before.nameStart (Radio.bonded t.before.radio)
        t.before.transport.observed t.before.transport.devices a).map Candidate.text).or
          (t.before.transport.discovered.get? a) := by
  rw [h, ranked, AddressMap.get?_listing _ Ranking.isRanking_order.distinct, Ranking.find?_order]

/-- After a report the device is listed under the name of the report. -/
theorem discovered_of_report (h : t.report? a = some d) (hn : d.name = some n) :
    t.after.transport.discovered.get? a = some (Device.label n a) := by
  unfold report? at h
  cases t.views with
  | sees e event idle observed discovered =>
    rw [event] at h
    obtain ⟨rfl, rfl⟩ : e.address = a ∧ e = d := by simpa using h
    rw [discovered, AddressMap.get?_insert, if_pos rfl, Device.summary, hn]
    rfl
  | lists event ranking observed discovered =>
    rw [event, ranking, if_pos rfl] at h
    dsimp only at h
    have hentry : Ranking.first? t.before.nameStart (Radio.bonded t.before.radio)
        t.before.transport.observed t.before.transport.devices a =
          some (Candidate.ofDevice .paired d) := by
      rw [Ranking.first?, h]
      rfl
    have ha : d.address = a := Ranking.address_of_first? hentry
    rw [discovered_of_lists discovered, hentry]
    simp [Candidate.ofDevice, Candidate.text, hn, ha]
  | other event idle observed discovered =>
    rw [idle, if_neg Bool.false_ne_true] at h
    split at h
    · rename_i e hevent
      exact absurd hevent (event e)
    · cases h

/-- Without a report a device is listed as before, unless a ranking lists it. -/
theorem discovered_of_no_report (h : t.report? a = none) :
    t.after.transport.discovered.get? a =
      ((t.relisted? a).map (Device.label · a)).or (t.before.transport.discovered.get? a) := by
  unfold report? at h
  unfold relisted?
  cases t.views with
  | sees e event idle observed discovered =>
    rw [event] at h
    have hne : ¬ a = e.address := by
      rintro rfl
      simp at h
    rw [discovered, AddressMap.get?_insert, if_neg hne, idle]
    rfl
  | lists event ranking observed discovered =>
    rw [event, ranking, if_pos rfl] at h
    rw [discovered_of_lists discovered, Ranking.first?_of_unpaired _ _ _ _ h, ranking, if_pos rfl]
    cases hentry : Ranking.first? t.before.nameStart [] t.before.transport.observed
        t.before.transport.devices a with
    | none => rfl
    | some c =>
      have ha : c.address = a := Ranking.address_of_first? hentry
      simp [Candidate.text, ha]
  | other event idle observed discovered =>
    rw [discovered, idle]
    rfl

/-! ## What was seen of a device -/

theorem nodup_observed (t : Turn ρ σ)
    (h : (t.before.transport.observed.map (·.address)).Nodup) :
    (t.after.transport.observed.map (·.address)).Nodup := by
  have hkept (hobserved : t.after.transport.observed = t.before.transport.observed ∨
      t.after.transport.observed = []) : (t.after.transport.observed.map (·.address)).Nodup := by
    rcases hobserved with hsame | hnone
    · rw [hsame]
      exact h
    · rw [hnone]
      exact List.nodup_nil
  cases t.views with
  | sees e event idle observed discovered =>
    rw [observed]
    exact Transport.nodup_observe h
  | lists event ranking observed discovered => exact hkept observed
  | other event idle observed discovered => exact hkept observed

/-- No other report of the device is among those of the last scan. -/
structure Saw (d : Device) (l : List Device) : Prop where
  nodup : (l.map (·.address)).Nodup
  only : ∀ e ∈ l, e.address = d.address → e = d

theorem saw_of_sighting (h : (t.before.transport.observed.map (·.address)).Nodup)
    (hevent : t.event? = some (.scanResult d)) : Saw d t.after.transport.observed := by
  refine ⟨t.nodup_observed h, fun e he haddress => ?_⟩
  cases t.views with
  | sees e' event idle observed discovered =>
    obtain rfl : e' = d := by simpa [hevent] using event.symm
    rw [observed, Transport.mem_observe h] at he
    exact he.elim id fun hother => absurd haddress hother.2
  | lists event ranking observed discovered => simp [event] at hevent
  | other event idle observed discovered => exact absurd hevent (event d)

theorem Saw.after (h : Saw d t.before.transport.observed) (hno : t.report? d.address = none) :
    Saw d t.after.transport.observed := by
  have hkept (hobserved : t.after.transport.observed = t.before.transport.observed ∨
      t.after.transport.observed = []) : Saw d t.after.transport.observed := by
    rcases hobserved with hsame | hnone
    · rw [hsame]
      exact h
    · rw [hnone]
      exact ⟨List.nodup_nil, by simp⟩
  cases t.views with
  | sees e event idle observed discovered =>
    have hne : e.address ≠ d.address := by
      rw [report?, event] at hno
      simpa using hno
    refine ⟨t.nodup_observed h.nodup, fun x hx haddress => ?_⟩
    rw [observed, Transport.mem_observe h.nodup] at hx
    rcases hx with rfl | ⟨hx, -⟩
    · exact absurd haddress hne
    · exact h.only x hx haddress
  | lists event ranking observed discovered => exact hkept observed
  | other event idle observed discovered => exact hkept observed

omit [Radio ρ] [DeviceStore σ] in
/-- A ranking lists a remembered device under its address, whatever was seen of it. -/
theorem relisted?_of_known (hlists : t.lists = true) (h : a ∈ t.before.transport.devices.known) :
    t.relisted? a = some a.text := by
  rw [relisted?, if_pos hlists, Ranking.first?, if_pos h]
  rfl

omit [Radio ρ] [DeviceStore σ] in
/-- A device that is not remembered can only be listed under the name it was seen with. -/
theorem relisted?_of_unknown {m : String} (hsaw : Saw d t.before.transport.observed)
    (hn : d.name = some n) (h : d.address ∉ t.before.transport.devices.known)
    (hm : t.relisted? d.address = some m) : m = n := by
  unfold relisted? at hm
  split at hm
  · rw [Ranking.first?, if_neg h] at hm
    simp only [List.find?_nil, Option.map_none, Option.none_or, Option.map_map,
      Option.map_eq_some_iff] at hm
    obtain ⟨e, he, hname⟩ := hm
    have haddress : e.address = d.address := by
      have hfound := List.find?_some he
      simp only [Bool.and_eq_true, beq_iff_eq] at hfound
      exact hfound.1
    obtain rfl := hsaw.only e (List.mem_of_find?_eq_some he) haddress
    rw [← hname]
    simp [Candidate.ofDevice, hn]
  · cases hm

end Turn

/-! ## Runs -/

namespace Endpoint

open Turn

variable {ρ σ : Type} [Radio ρ] [DeviceStore σ] {s : LinkSettings} {w : Endpoint (Logged ρ) σ}
  {a : Address} {d : Device} {n : String}

theorem nodup_observed_run (h : (w.transport.observed.map (·.address)).Nodup)
    (steps : List (Step ρ σ)) :
    ((w.runLogged steps).transport.observed.map (·.address)).Nodup := by
  induction steps using List.reverseRecOn with
  | nil => exact h
  | append_singleton steps st ih =>
    rw [runLogged_concat]
    exact Turn.nodup_observed ⟨w.runLogged steps, st⟩ ih

/-- A device that is listed under a name and not reported stays so exactly if it is not listed anew
under another one. -/
theorem named_iff (h : w.transport.discovered.get? a = some (Device.label n a))
    (steps : List (Step ρ σ)) (hlast : ∀ t ∈ turns steps w, t.report? a = none) :
    (∀ t ∈ turns steps w, t.after.transport.discovered.get? a = some (Device.label n a)) ↔
      ∀ t ∈ turns steps w, ∀ m, t.relisted? a = some m → m = n := by
  constructor
  · intro hkept t ht m hm
    have hafter := discovered_of_no_report (hlast t ht)
    rw [hkept t ht, hm] at hafter
    simpa [Device.label_inj, eq_comm] using hafter
  · intro hnames
    induction steps generalizing w with
    | nil => simp [turns]
    | cons st steps ih =>
      rw [turns, List.forall_mem_cons] at hlast hnames ⊢
      have hafter : (w.step st.logged).transport.discovered.get? a = some (Device.label n a) := by
        refine (discovered_of_no_report hlast.1).trans ?_
        cases hm : Turn.relisted? a ⟨w, st⟩ with
        | none => exact h
        | some m => rw [hnames.1 m hm]; rfl
      exact ⟨hafter, ih hafter hlast.2 hnames.2⟩

/-- What was seen of a device stays all that was seen of it, as long as it is not reported. -/
theorem saw_run (h : Saw d w.transport.observed) (steps : List (Step ρ σ))
    (hlast : ∀ t ∈ turns steps w, t.report? d.address = none) :
    ∀ t ∈ turns steps w, Saw d t.before.transport.observed := by
  induction steps generalizing w with
  | nil => simp [turns]
  | cons st steps ih =>
    rw [turns, List.forall_mem_cons] at hlast ⊢
    exact ⟨h, ih (Saw.after (t := ⟨w, st⟩) h hlast.1) hlast.2⟩

/-- Any run of a transport that was created, and a device that was last reported under a name. It is
listed under this name at once, and in all later states exactly if no ranking lists it without a
report under another name. If it was a scan that reported the device, that is exactly if no ranking
finds it remembered, unless its name is its address. -/
theorem reported_name_kept_iff {target : Option String} {radio : Logged ρ} {store : σ}
    (hw : create s target radio store = .ok w) (steps : List (Step ρ σ))
    {before after : List (Turn ρ σ)} {v : Turn ρ σ} (hturns : turns steps w = before ++ v :: after)
    (hreport : v.report? a = some d) (hname : d.name = some n)
    (hlast : ∀ t ∈ after, t.report? a = none) :
    let kept := ∀ t ∈ after, t.after.transport.discovered.get? a = some (Device.label n a)
    v.after.transport.discovered.get? a = some (Device.label n a) ∧
    (kept ↔ ∀ t ∈ after, ∀ m, t.relisted? a = some m → m = n) ∧
    (v.event? = some (.scanResult d) →
      (kept ↔ ∀ t ∈ after, t.lists = true → a ∈ t.before.transport.devices.known →
        a.text = n)) := by
  intro kept
  obtain ⟨first, later, hbefore, hv, rfl⟩ := turns_split hturns
  have hlisted := discovered_of_report hreport hname
  have hiff := named_iff hlisted later hlast
  refine ⟨hlisted, hiff, fun hevent => ?_⟩
  have hfresh : (w.transport.observed.map (·.address)).Nodup := by
    obtain ⟨b, devices, -, rfl⟩ := create_eq hw
    exact List.nodup_nil
  have hnodup : (v.before.transport.observed.map (·.address)).Nodup := by
    rw [hv]
    exact nodup_observed_run hfresh first
  obtain rfl : d.address = a := by
    rw [report?, hevent] at hreport
    simpa using hreport
  have hsaw := saw_run (saw_of_sighting hnodup hevent) later hlast
  refine hiff.trans ⟨?_, ?_⟩
  · intro hnames t ht hlists hknown
    exact hnames t ht _ (relisted?_of_known hlists hknown)
  · intro hknown t ht m hm
    by_cases h : d.address ∈ t.before.transport.devices.known
    · have hlists : t.lists = true := by
        by_contra hno
        rw [relisted?, if_neg hno] at hm
        cases hm
      rw [relisted?_of_known hlists h] at hm
      exact (Option.some.inj hm).symm.trans (hknown t ht hlists h)
    · exact relisted?_of_unknown (hsaw t ht) hname h hm

/-- A scan reports a bonded vehicle interface, which is not remembered for that. Two rankings list
it under the name that the scan reported. -/
theorem reported_name_kept_of_bonded :
    ∃ (w : Endpoint (Logged Radio.Simulated) Store.Memory)
      (steps : List (Step Radio.Simulated Store.Memory)) (before after : List (Turn _ _))
      (v : Turn _ _) (a : Address) (d : Device),
      create {} none ⟨{}, []⟩ {} = .ok w ∧ turns steps w = before ++ v :: after ∧
      v.report? a = some d ∧ d.name = some "OpenXC-VI-1" ∧
      after.map Turn.lists = [true, false, true] ∧
      (∀ t ∈ after, t.report? a = none) ∧
      ∀ t ∈ after, t.after.transport.discovered.get? a = some (Device.label "OpenXC-VI-1" a) := by
  let a : Address := ⟨0, 0, 0, 0, 0, 10⟩
  let d : Device := { address := a, name := some "OpenXC-VI-1", bonded := true }
  let w : Endpoint (Logged Radio.Simulated) Store.Memory := fresh {} none {} ⟨{}, []⟩ {}
  have hw : create {} none ⟨{}, []⟩ {} = .ok w := rfl
  let later : List (Step Radio.Simulated Store.Memory) :=
    [.act (.connect none), .act (.handle .linkDown), .act (.connect none)]
  let v : Turn Radio.Simulated Store.Memory := ⟨w.start, .act (.handle (.scanResult d))⟩
  have hturns : turns (.act .start :: .act (.handle (.scanResult d)) :: later) w =
      turns [.act .start] w ++ v :: turns later v.after := rfl
  have hlast : ∀ t ∈ turns later v.after, t.report? a = none := by decide
  have hkept := (reported_name_kept_iff hw _ hturns rfl rfl hlast).2.2 rfl
  exact ⟨w, _, _, _, v, a, d, hw, hturns, rfl, rfl, by decide, hlast, hkept.2 (by decide)⟩

/-- A scan reports a vehicle interface, which is remembered for that. The next search lists it
under its address. -/
theorem reported_name_lost :
    ∃ (w : Endpoint (Logged Radio.Simulated) Store.Memory)
      (steps : List (Step Radio.Simulated Store.Memory)) (before : List (Turn _ _))
      (v t : Turn _ _) (a : Address) (d : Device),
      create {} none ⟨{}, []⟩ {} = .ok w ∧ turns steps w = before ++ [v, t] ∧
      v.event? = some (.scanResult d) ∧ v.report? a = some d ∧ d.name = some "OpenXC-VI-1" ∧
      v.after.transport.discovered.get? a = some (Device.label "OpenXC-VI-1" a) ∧
      t.step = .act (.connect none) ∧ t.report? a = none ∧
      t.after.transport.discovered.get? a = some "00:00:00:00:00:0A (00:00:00:00:00:0A)" := by
  let a : Address := ⟨0, 0, 0, 0, 0, 10⟩
  let d : Device := { address := a, name := some "OpenXC-VI-1" }
  let w : Endpoint (Logged Radio.Simulated) Store.Memory := fresh {} none {} ⟨{}, []⟩ {}
  let v : Turn Radio.Simulated Store.Memory := ⟨w.start, .act (.handle (.scanResult d))⟩
  let t : Turn Radio.Simulated Store.Memory := ⟨v.after, .act (.connect none)⟩
  exact ⟨w, [.act .start, .act (.handle (.scanResult d)), .act (.connect none)],
    turns [.act .start] w, v, t, a, d, rfl, rfl, rfl, rfl, rfl, by decide, rfl, by decide,
    by decide⟩

end Endpoint

end VehicleLink
