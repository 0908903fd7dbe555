import VehicleLink.Address

/-!
# Sets of addresses

A set is its members in ascending order, so equal sets are equal values.
-/

namespace VehicleLink

/-- A finite set of addresses. -/
structure AddressSet where
  /-- The members, ascending. -/
  toList : List Address
  ascending : toList.Pairwise fun a b => a.key < b.key
  deriving DecidableEq

namespace AddressSet

/-- Puts an address into its place in an ascending list; one that is there stays. -/
def insertInto (a : Address) : List Address → List Address
  | [] => [a]
  | b :: rest =>
    if a = b then b :: rest
    else if a.key < b.key then a :: b :: rest
    else b :: insertInto a rest

theorem mem_insertInto {a x : Address} {l : List Address} :
    x ∈ insertInto a l ↔ x = a ∨ x ∈ l := by
  induction l with
  | nil => simp [insertInto]
  | cons b rest ih => grind [insertInto]

theorem insertInto_ascending {a : Address} {l : List Address}
    (h : l.Pairwise fun a b => a.key < b.key) :
    (insertInto a l).Pairwise fun a b => a.key < b.key := by
  induction l with
  | nil => simp [insertInto]
  | cons b rest ih =>
    rw [List.pairwise_cons] at h
    rw [insertInto]
    split
    · exact List.pairwise_cons.2 h
    · next hne =>
      split
      · next hlt =>
        refine List.pairwise_cons.2 ⟨fun x hx => ?_, List.pairwise_cons.2 h⟩
        rcases List.mem_cons.1 hx with rfl | hx
        · exact hlt
        · exact Nat.lt_trans hlt (h.1 x hx)
      · next hge =>
        refine List.pairwise_cons.2 ⟨fun x hx => ?_, ih h.2⟩
        rcases mem_insertInto.1 hx with rfl | hx
        · exact Nat.lt_of_le_of_ne (Nat.le_of_not_lt hge)
            fun he => hne (Address.key_injective he).symm
        · exact h.1 x hx

def empty : AddressSet := ⟨[], List.Pairwise.nil⟩

def insert (a : Address) (s : AddressSet) : AddressSet :=
  ⟨insertInto a s.toList, insertInto_ascending s.ascending⟩

def ofList (l : List Address) : AddressSet := l.foldl (fun s a => s.insert a) empty

def size (s : AddressSet) : Nat := s.toList.length

instance : Membership Address AddressSet := ⟨fun s a => a ∈ s.toList⟩

instance (a : Address) (s : AddressSet) : Decidable (a ∈ s) :=
  inferInstanceAs (Decidable (a ∈ s.toList))

instance : EmptyCollection AddressSet := ⟨empty⟩

instance : Inhabited AddressSet := ⟨empty⟩

@[simp] theorem mem_toList {a : Address} {s : AddressSet} : a ∈ s.toList ↔ a ∈ s := Iff.rfl

@[simp] theorem mem_insert {a x : Address} {s : AddressSet} : x ∈ s.insert a ↔ x = a ∨ x ∈ s :=
  mem_insertInto

end AddressSet

end VehicleLink
