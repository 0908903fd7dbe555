import VehicleLink.Ranking
import Mathlib.Data.List.Nodup

/-!
# Rankings and their specification

What a ranking is, said without the way it is made. An address may be tried if a bonded device with
the right name has it, if it is remembered, or if a vehicle interface with it was observed
(`Eligible`). Its entry comes from the first source that has it (`first?`), it stands where it first
comes in the sources (`places`), and the address that a link was last established to goes before all
others (`Precedes`).

`IsRanking` collects this. The ranking that is computed has these properties (`isRanking_order`),
and no other list has them (`IsRanking.unique`), so nothing is left open (`rank_specified`).
-/

namespace VehicleLink

namespace Candidate

/-! ## First occurrences -/

/-- For each address the first candidate that has it stays. -/
theorem find?_distinct (cs : List Candidate) (a : Address) :
    (distinct cs).find? (·.address == a) = cs.find? (·.address == a) := by
  induction cs with
  | nil => rfl
  | cons c rest ih =>
    rw [distinct, List.find?_cons, List.find?_cons]
    by_cases h : c.address = a
    · simp [h]
    · have hkept : (fun d : Candidate => decide ((!(d == c)) = true ∧ (d.address == a) = true)) =
          (·.address == a) := by
        funext d
        change decide ((!(d.address == c.address)) = true ∧ _) = _
        by_cases hd : d.address = a
        · simp [hd, Ne.symm h]
        · simp [hd]
      rw [show (c.address == a) = false by simpa using h, List.find?_filter, hkept]
      exact ih

/-- The candidates that stay are in the order in which their addresses first come. -/
theorem pairwise_distinct (cs : List Candidate) :
    ((distinct cs).map (·.address)).Pairwise fun a b =>
      (cs.map (·.address)).idxOf a < (cs.map (·.address)).idxOf b := by
  induction cs with
  | nil => exact .nil
  | cons c rest ih =>
    have hother : ∀ a ∈ ((distinct rest).filter fun d => !(d == c)).map (·.address),
        c.address ≠ a := by
      rintro _ ha rfl
      obtain ⟨d, hd, hda⟩ := List.mem_map.1 ha
      have hne : (!(d.address == c.address)) = true := (List.mem_filter.1 hd).2
      simp [hda] at hne
    have hrest := ih.sublist (List.filter_sublist (p := fun d => !(d == c)) |>.map (·.address))
    rw [distinct, List.map_cons, List.map_cons, List.pairwise_cons]
    refine ⟨fun a ha => ?_, hrest.imp_of_mem fun {a b} ha hb hlt => ?_⟩
    · rw [List.idxOf_cons_self, List.idxOf_cons_ne _ (hother a ha)]
      exact Nat.succ_pos _
    · rw [List.idxOf_cons_ne _ (hother a ha), List.idxOf_cons_ne _ (hother b hb)]
      exact Nat.succ_lt_succ hlt

theorem nodup_distinct (cs : List Candidate) : ((distinct cs).map (·.address)).Nodup :=
  (pairwise_distinct cs).imp fun hlt heq => absurd hlt (by rw [heq]; exact Nat.lt_irrefl _)

/-- Where no address comes twice, a candidate is the one that is found by its address. -/
theorem find?_of_mem {cs : List Candidate} (h : (cs.map (·.address)).Nodup) {c : Candidate}
    (hc : c ∈ cs) : cs.find? (·.address == c.address) = some c := by
  obtain ⟨before, after, rfl⟩ := List.append_of_mem hc
  refine List.find?_eq_some_iff_append.2 ⟨by simp, before, after, rfl, fun d hd => ?_⟩
  have hne : d.address ≠ c.address := by
    rw [List.map_append, List.nodup_append] at h
    exact h.2.2 _ (List.mem_map_of_mem hd) _ List.mem_cons_self
  simpa using hne

theorem mem_addresses_iff {cs : List Candidate} {a : Address} :
    a ∈ cs.map (·.address) ↔ (cs.find? (·.address == a)).isSome = true := by
  simp [List.find?_isSome]

end Candidate

namespace Ranking

/-! ## The specification -/

section

variable (start : String) (bonded observed : List Device) (devices : DeviceSet)

/-- A device with the address may be tried. -/
def Eligible (a : Address) : Prop :=
  (∃ d ∈ bonded, d.address = a ∧ d.nameBegins start = true ∧ d.link = .le) ∨
    a ∈ devices.known ∨
    ∃ d ∈ observed, d.address = a ∧ (d.nameBegins start = true ∨ Gatt.service ∈ d.services)

/-- The entry for an address: of the first bonded device that has it and may be tried, or else the
remembered one, or else of the first vehicle interface that was observed with it. -/
def first? (a : Address) : Option Candidate :=
  ((bonded.find? fun d => d.address == a && (d.nameBegins start && d.link == .le)).map
    (Candidate.ofDevice .paired)).or
      ((if a ∈ devices.known then some (.persisted a) else none).or
        ((observed.find? fun d => d.address == a && d.isVehicleInterface start).map
          (Candidate.ofDevice .scan)))

/-- The addresses of all sources in their order; one may come more than once. -/
def places : List Address :=
  (bonded.filter fun d => d.nameBegins start && d.link == .le).map (·.address) ++
    (devices.known.toList ++ (observed.filter fun d => d.isVehicleInterface start).map (·.address))

/-- The first address is tried before the second one. -/
def Precedes (a b : Address) : Prop :=
  a ≠ b ∧ (devices.lastConnected = some a ∨
    devices.lastConnected ≠ some b ∧
      (places start bonded observed devices).idxOf a <
        (places start bonded observed devices).idxOf b)

/-- A list of candidates in the order in which to try them. -/
structure IsRanking (cs : List Candidate) : Prop where
  distinct : (cs.map (·.address)).Nodup
  complete : ∀ a, a ∈ cs.map (·.address) ↔ Eligible start bonded observed devices a
  entries : ∀ c ∈ cs, first? start bonded observed devices c.address = some c
  ordered : (cs.map (·.address)).Pairwise (Precedes start bonded observed devices)

end

variable {start : String} {bonded observed : List Device} {devices : DeviceSet}

theorem Precedes.of_place {a b : Address} (hlast : devices.lastConnected ≠ some b)
    (h : (places start bonded observed devices).idxOf a <
      (places start bonded observed devices).idxOf b) :
    Precedes start bonded observed devices a b := by
  refine ⟨?_, .inr ⟨hlast, h⟩⟩
  rintro rfl
  exact Nat.lt_irrefl _ h

theorem Precedes.asymm {a b : Address} (h : Precedes start bonded observed devices a b) :
    ¬ Precedes start bonded observed devices b a := by
  rintro ⟨-, hb⟩
  obtain ⟨hne, ha⟩ := h
  rcases ha with ha | ⟨hnb, hlt⟩
  · rcases hb with hb | ⟨hna, -⟩
    · exact hne (Option.some.inj (ha.symm.trans hb))
    · exact hna ha
  · rcases hb with hb | ⟨-, hgt⟩
    · exact hnb hb
    · exact Nat.lt_asymm hlt hgt

/-- There is one ranking only: its members are the entries of the eligible addresses, and of two of
them one precedes the other. -/
theorem IsRanking.unique {cs ds : List Candidate} (hc : IsRanking start bonded observed devices cs)
    (hd : IsRanking start bonded observed devices ds) : cs = ds := by
  have hmem {xs : List Candidate} (h : IsRanking start bonded observed devices xs)
      (c : Candidate) : c ∈ xs ↔ Eligible start bonded observed devices c.address ∧
        first? start bonded observed devices c.address = some c := by
    constructor
    · intro hx
      exact ⟨(h.complete _).1 (List.mem_map_of_mem hx), h.entries c hx⟩
    · rintro ⟨heligible, hentry⟩
      obtain ⟨x, hx, hxc⟩ := List.mem_map.1 ((h.complete _).2 heligible)
      have hsame := h.entries x hx
      rw [hxc, hentry] at hsame
      exact Option.some.inj hsame ▸ hx
  have hperm : cs.Perm ds :=
    (List.perm_ext_iff_of_nodup (List.Nodup.of_map Candidate.address hc.distinct)
      (List.Nodup.of_map Candidate.address hd.distinct)).2 fun c => by rw [hmem hc, hmem hd]
  exact hperm.eq_of_pairwise (fun _ _ _ _ hab hba => absurd hba hab.asymm)
    (List.pairwise_map.1 hc.ordered) (List.pairwise_map.1 hd.ordered)

/-! ## The sources -/

/-- All candidates in the order of their sources. -/
def sources (start : String) (bonded observed : List Device) (devices : DeviceSet) :
    List Candidate :=
  paired start bonded ++ (remembered devices ++ scanned start observed)

theorem bySource_eq : bySource start bonded observed devices =
    Candidate.distinct (sources start bonded observed devices) := by
  rw [bySource, List.append_assoc]
  rfl

theorem addresses_sources :
    (sources start bonded observed devices).map (·.address) =
      places start bonded observed devices := by
  simp [sources, paired, remembered, scanned, places, Function.comp_def, Candidate.ofDevice,
    Candidate.persisted]

theorem find?_ofDevice (source : Source) (p : Device → Bool) (ds : List Device) (a : Address) :
    ((ds.filter p).map (Candidate.ofDevice source)).find? (·.address == a) =
      (ds.find? fun d => d.address == a && p d).map (Candidate.ofDevice source) := by
  rw [List.find?_map, List.find?_filter]
  congr 2
  funext d
  rw [Bool.eq_iff_iff]
  simp [Candidate.ofDevice, and_comm]

theorem find?_remembered (a : Address) :
    (remembered devices).find? (·.address == a) =
      if a ∈ devices.known then some (.persisted a) else none := by
  by_cases h : a ∈ devices.known
  · obtain ⟨before, after, hsplit⟩ := List.append_of_mem (AddressSet.mem_toList.2 h)
    have hascending := devices.known.ascending
    rw [if_pos h, remembered, hsplit, List.map_append, List.map_cons]
    rw [hsplit, List.pairwise_append] at hascending
    refine List.find?_eq_some_iff_append.2 ⟨by simp [Candidate.persisted], _, _, rfl, ?_⟩
    rintro c hc
    obtain ⟨b, hb, rfl⟩ := List.mem_map.1 hc
    have hlt := hascending.2.2 b hb a List.mem_cons_self
    have hne : b ≠ a := by
      rintro rfl
      exact Nat.lt_irrefl _ hlt
    simpa [Candidate.persisted] using hne
  · rw [if_neg h, remembered, List.find?_eq_none]
    rintro c hc
    obtain ⟨b, hb, rfl⟩ := List.mem_map.1 hc
    have hne : b ≠ a := fun heq => h (heq ▸ hb)
    simpa [Candidate.persisted] using hne

/-- The entry for an address is the first one among all sources. -/
theorem find?_sources (a : Address) :
    (sources start bonded observed devices).find? (·.address == a) =
      first? start bonded observed devices a := by
  rw [sources, List.find?_append, List.find?_append, find?_remembered, paired, scanned,
    find?_ofDevice, find?_ofDevice]
  rfl

theorem find?_bySource (a : Address) :
    (bySource start bonded observed devices).find? (·.address == a) =
      first? start bonded observed devices a := by
  rw [bySource_eq, Candidate.find?_distinct, find?_sources]

theorem eligible_iff {a : Address} : Eligible start bonded observed devices a ↔
    (first? start bonded observed devices a).isSome = true := by
  have hremembered : (if a ∈ devices.known then some (Candidate.persisted a) else none).isSome =
      decide (a ∈ devices.known) := by
    split <;> simp_all
  simp [Eligible, first?, List.find?_isSome, Device.isVehicleInterface, hremembered]

/-! ## The ranking that is computed -/

theorem toFront_cases (a : Address) (cs : List Candidate) :
    (toFront a cs = cs ∧ ∀ c ∈ cs, c.address ≠ a) ∨
      ∃ before c after, cs = before ++ c :: after ∧ c.address = a ∧
        toFront a cs = c :: (before ++ after) := by
  rw [toFront]
  cases hfind : cs.find? (·.address == a) with
  | none =>
    refine .inl ⟨rfl, fun c hc => ?_⟩
    simpa using List.find?_eq_none.1 hfind c hc
  | some c =>
    obtain ⟨hca, before, after, rfl, hbefore⟩ := List.find?_eq_some_iff_append.1 hfind
    refine .inr ⟨before, c, after, rfl, by simpa using hca, ?_⟩
    dsimp only
    rw [List.eraseP_append_right _ (fun b hb => by simpa using hbefore b hb),
      List.eraseP_cons, hca, cond_true]

section

variable (start bonded observed devices)

theorem pairwise_bySource :
    ((bySource start bonded observed devices).map (·.address)).Pairwise fun a b =>
      (places start bonded observed devices).idxOf a <
        (places start bonded observed devices).idxOf b := by
  rw [bySource_eq, ← addresses_sources]
  exact Candidate.pairwise_distinct _

theorem nodup_bySource : ((bySource start bonded observed devices).map (·.address)).Nodup := by
  rw [bySource_eq]
  exact Candidate.nodup_distinct _

/-- The order of the sources, or the same with the candidate in front that a link was last
established to. -/
theorem order_cases :
    (order start bonded observed devices = bySource start bonded observed devices ∧
      ∀ c ∈ bySource start bonded observed devices, devices.lastConnected ≠ some c.address) ∨
    ∃ before c after, bySource start bonded observed devices = before ++ c :: after ∧
      devices.lastConnected = some c.address ∧
      order start bonded observed devices = c :: (before ++ after) := by
  rw [order]
  cases hlast : devices.lastConnected with
  | none => exact .inl ⟨rfl, fun _ _ => nofun⟩
  | some last =>
    rcases toFront_cases last (bySource start bonded observed devices) with
      ⟨hsame, hother⟩ | ⟨before, c, after, hsplit, hc, hfront⟩
    · exact .inl ⟨hsame, fun c hc heq => hother c hc (Option.some.inj heq).symm⟩
    · exact .inr ⟨before, c, after, hsplit, congrArg some hc.symm, hfront⟩

theorem order_perm :
    (order start bonded observed devices).Perm (bySource start bonded observed devices) := by
  rcases order_cases start bonded observed devices with
    ⟨heq, -⟩ | ⟨before, c, after, hsplit, -, hfront⟩
  · rw [heq]
  · rw [hsplit, hfront]
    exact List.perm_middle.symm

theorem order_ordered : ((order start bonded observed devices).map (·.address)).Pairwise
    (Precedes start bonded observed devices) := by
  have hplaces := pairwise_bySource start bonded observed devices
  have hnodup := nodup_bySource start bonded observed devices
  rw [List.pairwise_map] at hplaces ⊢
  rcases order_cases start bonded observed devices with
    ⟨heq, hlast⟩ | ⟨before, c, after, hsplit, hlast, hfront⟩
  · rw [heq]
    exact hplaces.imp_of_mem fun _ hb hlt => .of_place (hlast _ hb) hlt
  · have hothers : ∀ d ∈ before ++ after, c.address ≠ d.address := by
      rw [hsplit, ((List.perm_middle).map _).nodup_iff, List.map_cons, List.nodup_cons] at hnodup
      exact fun d hd heq => hnodup.1 (heq ▸ List.mem_map_of_mem hd)
    rw [hsplit] at hplaces
    rw [hfront, List.pairwise_cons]
    refine ⟨fun d hd => ⟨hothers d hd, .inl hlast⟩, ?_⟩
    have hrest := hplaces.sublist ((List.sublist_cons_self c after).append_left before)
    refine hrest.imp_of_mem fun {a b} _ hb hlt => .of_place ?_ hlt
    rw [hlast]
    exact fun heq => hothers b hb (Option.some.inj heq)

end

theorem isRanking_order :
    IsRanking start bonded observed devices (order start bonded observed devices) where
  distinct := ((order_perm start bonded observed devices).map _).nodup_iff.2
    (nodup_bySource start bonded observed devices)
  complete a := by
    rw [((order_perm start bonded observed devices).map _).mem_iff, Candidate.mem_addresses_iff,
      find?_bySource, eligible_iff]
  entries c hc := by
    rw [← find?_bySource]
    exact Candidate.find?_of_mem (nodup_bySource start bonded observed devices)
      ((order_perm start bonded observed devices).mem_iff.1 hc)
  ordered := order_ordered start bonded observed devices

/-! ## What is remembered then -/

theorem remember_eq (ranked : List Candidate) (devices : DeviceSet) :
    remember ranked devices =
      { devices with
        lastConnected := devices.lastConnected.or (ranked.head?.map (·.address)) } := by
  obtain ⟨last, known⟩ := devices
  cases last <;> cases ranked <;> rfl

theorem remember_ne_iff (ranked : List Candidate) (devices : DeviceSet) :
    remember ranked devices ≠ devices ↔ devices.lastConnected = none ∧ ranked ≠ [] := by
  obtain ⟨last, known⟩ := devices
  cases last <;> cases ranked <;> simp [remember_eq]

theorem order_remember :
    order start bonded observed (remember (order start bonded observed devices) devices) =
      order start bonded observed devices := by
  obtain ⟨last, known⟩ := devices
  cases last with
  | some last => rfl
  | none =>
    change order start bonded observed (remember (bySource start bonded observed ⟨none, known⟩) _) =
      bySource start bonded observed ⟨none, known⟩
    cases hfound : bySource start bonded observed ⟨none, known⟩ with
    | nil => exact hfound
    | cons c rest =>
      change toFront c.address (bySource start bonded observed ⟨none, known⟩) = c :: rest
      simp [hfound, toFront]

/-- A ranking made again, with what is remembered after the first, is the same. -/
theorem rank_again : rank start bonded observed (rank start bonded observed devices).2 =
    rank start bonded observed devices := by
  refine Prod.ext order_remember ?_
  show remember (order start bonded observed (remember _ devices)) (remember _ devices) =
    remember _ devices
  rw [order_remember, remember_eq, remember_eq, Option.or_assoc, Option.or_self]

/-- The ranking is the one list that has the properties of a ranking. What is remembered changes
only where no link was ever established and there is a candidate: then the first one becomes the
device to begin with. A second ranking changes nothing. -/
theorem rank_specified (start : String) (bonded observed : List Device) (devices : DeviceSet) :
    (∀ ranked after, rank start bonded observed devices = (ranked, after) ↔
      IsRanking start bonded observed devices ranked ∧ after.known = devices.known ∧
        after.lastConnected = devices.lastConnected.or (ranked.head?.map (·.address))) ∧
    ((rank start bonded observed devices).2 ≠ devices ↔
      devices.lastConnected = none ∧ (rank start bonded observed devices).1 ≠ []) ∧
    rank start bonded observed (rank start bonded observed devices).2 =
      rank start bonded observed devices := by
  refine ⟨fun ranked after => ?_, remember_ne_iff _ _, rank_again⟩
  constructor
  · intro h
    obtain ⟨rfl, rfl⟩ := Prod.mk.inj h
    rw [remember_eq]
    exact ⟨isRanking_order, rfl, rfl⟩
  · rintro ⟨hranked, hknown, hlast⟩
    obtain rfl := hranked.unique isRanking_order
    refine Prod.ext rfl ?_
    show remember _ devices = after
    rw [remember_eq, ← hlast, ← hknown]

end Ranking

end VehicleLink
