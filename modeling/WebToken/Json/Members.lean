import WebToken.Json.Basic

/-! The members of an object by name. Setting and removing one leave the others alone, values and
order alike. -/

namespace WebToken

namespace Members

def find? (members : Members) (name : String) : Option Json :=
  members.lookup name

def names (members : Members) : List String :=
  members.map (·.1)

/-- Sets a member: one of that name keeps its place, a new one comes last. -/
def insert (members : Members) (name : String) (value : Json) : Members :=
  if members.any (·.1 == name) then
    members.map fun member => if member.1 == name then (name, value) else member
  else members ++ [(name, value)]

/-- Removes a member; the others keep their order. -/
def erase (members : Members) (name : String) : Members :=
  members.filter (·.1 != name)

@[simp]
theorem find?_nil (name : String) : find? [] name = none := rfl

theorem find?_cons (member : String × Json) (members : Members) (name : String) :
    find? (member :: members) name =
      if name = member.1 then some member.2 else find? members name := by
  rw [find?, List.lookup_cons]
  by_cases same : name = member.1
  · simp [same]
  · rw [beq_false_of_ne same, if_neg same, find?]

theorem find?_append (front back : Members) (name : String) :
    find? (front ++ back) name = (find? front name).or (find? back name) := by
  induction front with
  | nil => rfl
  | cons member front ih =>
      rw [List.cons_append, find?_cons, find?_cons, ih]
      by_cases same : name = member.1 <;> simp [same]

theorem find?_eq_none_iff (members : Members) (name : String) :
    find? members name = none ↔ name ∉ names members := by
  induction members with
  | nil => simp [names]
  | cons member members ih =>
      rw [find?_cons]
      by_cases same : name = member.1 <;> simp_all [names]

theorem any_name_eq (members : Members) (name : String) :
    members.any (·.1 == name) = true ↔ name ∈ names members := by
  simp [names, List.any_eq_true]

theorem find?_replace (members : Members) (name other : String) (value : Json) :
    find? (members.map fun member => if member.1 == name then (name, value) else member) other =
      if other = name then (find? members other).map fun _ => value else find? members other := by
  induction members with
  | nil => simp
  | cons member members ih =>
      rw [List.map_cons, find?_cons, find?_cons, ih]
      by_cases here : member.1 = name
      · by_cases same : other = name <;> simp [here, same]
      · by_cases same : other = name
        · simp [here, same, Ne.symm here]
        · simp [here, same]

/-- A member that is set has its value, and all others keep theirs. -/
theorem find?_insert (members : Members) (name other : String) (value : Json) :
    find? (insert members name value) other =
      if other = name then some value else find? members other := by
  by_cases present : members.any (·.1 == name) = true
  · rw [insert, if_pos present, find?_replace]
    by_cases same : other = name
    · rw [if_pos same, if_pos same, same]
      cases found : find? members name with
      | none => exact absurd ((any_name_eq members name).1 present) ((find?_eq_none_iff _ _).1 found)
      | some => rfl
    · rw [if_neg same, if_neg same]
  · rw [insert, if_neg present, find?_append, find?_cons, find?_nil]
    have missing : find? members name = none :=
      (find?_eq_none_iff _ _).2 fun found => present ((any_name_eq _ _).2 found)
    by_cases same : other = name
    · simp [same, missing]
    · simp [same]

/-- A member that is removed is missing, and all others keep their values. -/
theorem find?_erase (members : Members) (name other : String) :
    find? (erase members name) other = if other = name then none else find? members other := by
  induction members with
  | nil => simp [erase]
  | cons member members ih =>
      rw [erase, List.filter_cons, find?_cons]
      by_cases here : member.1 = name
      · rw [if_neg (by simp [here]), here]
        exact ih.trans (by by_cases same : other = name <;> simp [same])
      · rw [if_pos (by simp [here]), find?_cons]
        by_cases first : other = member.1
        · rw [if_pos first, if_pos first, if_neg (first ▸ here)]
        · rw [if_neg first, if_neg first]
          exact ih

theorem names_erase (members : Members) (name : String) :
    names (erase members name) = (names members).filter (· != name) := by
  simp [names, erase, List.filter_map, Function.comp_def]

theorem names_insert (members : Members) (name : String) (value : Json) :
    names (insert members name value) =
      if name ∈ names members then names members else names members ++ [name] := by
  by_cases present : members.any (·.1 == name) = true
  · rw [insert, if_pos present, if_pos ((any_name_eq _ _).1 present), names, names, List.map_map]
    refine List.map_congr_left fun member _ => ?_
    by_cases here : member.1 = name <;> simp [here]
  · rw [insert, if_neg present, if_neg fun found => present ((any_name_eq _ _).2 found)]
    simp [names]

end Members

end WebToken
