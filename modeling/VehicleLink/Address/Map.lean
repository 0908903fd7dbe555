import VehicleLink.Address

/-!
# Maps from addresses

Entries in ascending order of their addresses, one for each address; a later value for an address
takes the place of the earlier one.
-/

namespace VehicleLink

/-- A finite map from addresses, as its entries in ascending order. -/
structure AddressMap (β : Type) where
  /-- The entries, ascending by address. -/
  toList : List (Address × β) := []

namespace AddressMap

variable {β : Type}

/-- Puts an entry into its place, over one with its address. -/
def insertInto (a : Address) (v : β) : List (Address × β) → List (Address × β)
  | [] => [(a, v)]
  | (b, w) :: rest =>
    if a = b then (a, v) :: rest
    else if a.key < b.key then (a, v) :: (b, w) :: rest
    else (b, w) :: insertInto a v rest

def insert (a : Address) (v : β) (m : AddressMap β) : AddressMap β := ⟨insertInto a v m.toList⟩

def lookup (a : Address) : List (Address × β) → Option β
  | [] => none
  | (b, w) :: rest => if a = b then some w else lookup a rest

def get? (m : AddressMap β) (a : Address) : Option β := lookup a m.toList

theorem get?_insert (m : AddressMap β) (a x : Address) (v : β) :
    (m.insert a v).get? x = if x = a then some v else m.get? x := by
  obtain ⟨l⟩ := m
  simp only [get?, insert]
  induction l with
  | nil => simp [insertInto, lookup]
  | cons p rest ih => grind [insertInto, lookup]

end AddressMap

end VehicleLink
