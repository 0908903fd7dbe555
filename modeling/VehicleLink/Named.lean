/-!
# Values by name

Lists of pairs of a name and what it stands for. A name that is inserted again keeps its place in
the list. The two laws say what every name stands for after an insertion and after a removal.
-/

namespace VehicleLink

/-- Values by name. -/
abbrev Named (α : Type) := List (String × α)

namespace Named

variable {α : Type}

/-- What a name stands for. -/
def get? (name : String) : Named α → Option α
  | [] => none
  | (other, v) :: rest => if other = name then some v else get? name rest

/-- Lets a name stand for a value. -/
def insert (name : String) (v : α) : Named α → Named α
  | [] => [(name, v)]
  | (other, w) :: rest =>
    if other = name then (name, v) :: rest else (other, w) :: insert name v rest

/-- Lets a name stand for nothing. -/
def erase (name : String) : Named α → Named α
  | [] => []
  | (other, v) :: rest => if other = name then erase name rest else (other, v) :: erase name rest

theorem get?_insert (name other : String) (v : α) (t : Named α) :
    get? other (t.insert name v) = if other = name then some v else get? other t := by
  induction t with
  | nil => simp [insert, get?, eq_comm]
  | cons e rest ih =>
    obtain ⟨first, w⟩ := e
    by_cases h : first = name
    · subst h
      by_cases ho : first = other
      · subst ho; simp [insert, get?]
      · simp [insert, get?, ho, Ne.symm ho]
    · by_cases ho : first = other
      · subst ho; simp [insert, get?, h]
      · simp [insert, get?, ih, h, ho]

theorem get?_erase (name other : String) (t : Named α) :
    get? other (t.erase name) = if other = name then none else get? other t := by
  induction t with
  | nil => simp [erase, get?]
  | cons e rest ih =>
    obtain ⟨first, w⟩ := e
    by_cases h : first = name
    · subst h
      by_cases ho : first = other
      · subst ho; simp [erase, ih]
      · simp [erase, get?, ih, ho, Ne.symm ho]
    · by_cases ho : first = other
      · subst ho; simp [erase, get?, h]
      · simp [erase, get?, ih, h, ho]

end Named

end VehicleLink
