import WebToken.Json.Members

/-! How deep a value nests, and what holds of all values inside it. -/

namespace WebToken

namespace Members

theorem insert_of_not_mem {members : Members} {name : String} (h : name ∉ members.names)
    (value : Json) : members.insert name value = members ++ [(name, value)] := by
  rw [insert, if_neg]
  rw [any_name_eq]
  exact h

theorem replace_of_not_mem {members : Members} {name : String} (h : name ∉ members.names)
    (value : Json) :
    members.map (fun member => if member.1 == name then (name, value) else member) = members := by
  refine (List.map_congr_left fun member hmember => ?_).trans (List.map_id' members)
  rw [if_neg]
  rw [beq_iff_eq]
  rintro rfl
  exact h (List.mem_map_of_mem hmember)

/-- Setting a member that comes last replaces it there. -/
theorem insert_append_singleton {members : Members} {name : String} (h : name ∉ members.names)
    (old value : Json) :
    insert (members ++ [(name, old)]) name value = members ++ [(name, value)] := by
  have hpresent : List.any (members ++ [(name, old)]) (·.1 == name) = true := by
    rw [List.any_append, List.any_cons, BEq.rfl, Bool.true_or, Bool.or_true]
  rw [insert, if_pos hpresent, List.map_append, replace_of_not_mem h, List.map_singleton,
    if_pos BEq.rfl]

/-- A member that is found stands behind others, none of which has its name. -/
theorem exists_of_find? {members : Members} {name : String} {value : Json}
    (h : members.find? name = some value) :
    ∃ front back : Members, members = front ++ (name, value) :: back ∧ name ∉ front.names := by
  obtain ⟨front, back, hmembers, hfront⟩ := List.lookup_eq_some_iff.mp h
  refine ⟨front, back, hmembers, fun hname => ?_⟩
  obtain ⟨member, hmember, rfl⟩ := List.mem_map.mp hname
  have hother := hfront member hmember
  rw [bne_self_eq_false] at hother
  cases hother

theorem erase_of_not_mem {members : Members} {name : String} (h : name ∉ members.names) :
    members.erase name = members := by
  refine List.filter_eq_self.mpr fun member hmember => ?_
  rw [bne_iff_ne]
  rintro rfl
  exact h (List.mem_map_of_mem hmember)

theorem not_mem_names_erase (members : Members) (name : String) :
    name ∉ (members.erase name).names := by
  rw [names_erase, List.mem_filter]
  exact fun h => absurd h.2 (by rw [bne_self_eq_false]; exact Bool.false_ne_true)

theorem erase_append_singleton (members : Members) (name : String) (value : Json) :
    erase (members ++ [(name, value)]) name = members.erase name := by
  have hlast : erase [(name, value)] name = [] :=
    List.filter_cons_of_neg (by rw [bne_self_eq_false]; exact Bool.false_ne_true)
  calc erase (members ++ [(name, value)]) name
      = members.erase name ++ erase [(name, value)] name := List.filter_append _ _
    _ = members.erase name := by rw [hlast, List.append_nil]

theorem erase_replace (members : Members) (name : String) (value : Json) :
    erase (members.map fun member => if member.1 == name then (name, value) else member) name =
      members.erase name := by
  induction members with
  | nil => rfl
  | cons member members ih =>
      simp only [erase] at ih
      simp only [erase, List.map_cons, List.filter_cons, ih]
      by_cases hname : member.1 = name
      · simp [hname]
      · simp [hname]

/-- Removing a member that was set leaves what removing it before would have left. -/
theorem erase_insert (members : Members) (name : String) (value : Json) :
    (members.insert name value).erase name = members.erase name := by
  rw [insert]
  split
  · exact erase_replace members name value
  · exact erase_append_singleton members name value

/-- Of two values that are given to a member the later one stays. -/
theorem insert_insert (members : Members) (name : String) (value other : Json) :
    (members.insert name value).insert name other = members.insert name other := by
  by_cases hname : name ∈ members.names
  · have hpresent : name ∈ (members.insert name value).names := by
      rw [names_insert, if_pos hname]
      exact hname
    rw [insert, if_pos ((any_name_eq _ _).mpr hpresent), insert, insert,
      if_pos ((any_name_eq _ _).mpr hname), if_pos ((any_name_eq _ _).mpr hname), List.map_map]
    refine List.map_congr_left fun member _ => ?_
    by_cases hmember : member.1 = name <;> simp [hmember]
  · rw [insert_of_not_mem hname, insert_append_singleton hname, insert_of_not_mem hname]

theorem nodup_names_insert {members : Members} (h : members.names.Nodup) (name : String)
    (value : Json) : (members.insert name value).names.Nodup := by
  rw [names_insert]
  by_cases hmem : name ∈ members.names
  · rw [if_pos hmem]
    exact h
  · rw [if_neg hmem, List.nodup_append]
    have hsingle : [name].Nodup := List.nodup_cons.mpr ⟨List.not_mem_nil, List.nodup_nil⟩
    refine ⟨h, hsingle, fun other hother last hlast hsame => ?_⟩
    rw [hsame, List.mem_singleton.mp hlast] at hother
    exact hmem hother

theorem nodup_names_erase {members : Members} (h : members.names.Nodup) (name : String) :
    (members.erase name).names.Nodup := by
  rw [names_erase]
  exact h.filter _

theorem mem_insert {members : Members} {name : String} {value : Json} {member : String × Json}
    (h : member ∈ members.insert name value) : member = (name, value) ∨ member ∈ members := by
  rw [insert] at h
  split at h
  · obtain ⟨old, hold, hmember⟩ := List.mem_map.mp h
    split at hmember
    · exact Or.inl hmember.symm
    · exact Or.inr (hmember ▸ hold)
  · rcases List.mem_append.mp h with h | h
    · exact Or.inr h
    · exact Or.inl (List.mem_singleton.mp h)

end Members

namespace Json

/-- The values directly in a container. -/
def parts : Json → List Json
  | array items => items
  | object members => members.map (·.2)
  | _ => []

mutual

/-- How deep the containers of a value nest, itself included. -/
def depth : Json → Nat
  | array items => depthOfItems items + 1
  | object members => depthOfMembers members + 1
  | _ => 0

def depthOfItems : List Json → Nat
  | [] => 0
  | item :: items => max item.depth (depthOfItems items)

def depthOfMembers : List (String × Json) → Nat
  | [] => 0
  | (_, value) :: members => max value.depth (depthOfMembers members)

end

theorem depthOfItems_le_iff {items : List Json} {depth : Nat} :
    depthOfItems items ≤ depth ↔ ∀ item ∈ items, item.depth ≤ depth := by
  induction items with
  | nil => exact iff_of_true (Nat.zero_le _) fun _ h => nomatch h
  | cons item items ih => rw [depthOfItems, Nat.max_le, ih, List.forall_mem_cons]

theorem depthOfMembers_le_iff {members : Members} {depth : Nat} :
    depthOfMembers members ≤ depth ↔ ∀ member ∈ members, member.2.depth ≤ depth := by
  induction members with
  | nil => exact iff_of_true (Nat.zero_le _) fun _ h => nomatch h
  | cons member members ih => rw [depthOfMembers, Nat.max_le, ih, List.forall_mem_cons]

/-- The value and all values inside it satisfy a condition. -/
inductive Every (Holds : Json → Prop) : Json → Prop where
  | intro {value : Json} (here : Holds value) (inside : ∀ part ∈ value.parts, Every Holds part) :
      Every Holds value

variable {Holds : Json → Prop}

theorem Every.here {value : Json} (h : Every Holds value) : Holds value := by
  cases h with
  | intro here inside => exact here

theorem Every.inside {value part : Json} (h : Every Holds value) (hpart : part ∈ value.parts) :
    Every Holds part := by
  cases h with
  | intro here inside => exact inside part hpart

theorem every_scalar {value : Json} (hparts : value.parts = []) (hhere : Holds value) :
    Every Holds value := by
  refine .intro hhere ?_
  rw [hparts]
  exact fun _ hpart => nomatch hpart

theorem every_array_iff (items : List Json) :
    Every Holds (.array items) ↔ Holds (.array items) ∧ ∀ item ∈ items, Every Holds item :=
  ⟨fun h => ⟨h.here, fun _ hitem => h.inside hitem⟩, fun h => .intro h.1 h.2⟩

theorem every_object_iff (members : Members) :
    Every Holds (.object members) ↔
      Holds (.object members) ∧ ∀ member ∈ members, Every Holds member.2 := by
  constructor
  · intro h
    exact ⟨h.here, fun member hmember => h.inside (List.mem_map_of_mem hmember)⟩
  · rintro ⟨hhere, hmembers⟩
    refine .intro hhere fun part hpart => ?_
    obtain ⟨member, hmember, rfl⟩ := List.mem_map.mp hpart
    exact hmembers member hmember

/-- No number that is not whole. -/
def Integral : Json → Prop
  | number (.float _ _) => False
  | _ => True

/-- No object with two members of one name. -/
def NamesUnique : Json → Prop
  | object members => (Members.names members).Nodup
  | _ => True

/-- Setting and removing members leaves names unique. -/
theorem every_namesUnique_insert {members : Members} (h : Every NamesUnique (.object members))
    (name : String) {value : Json} (hvalue : Every NamesUnique value) :
    Every NamesUnique (.object (members.insert name value)) := by
  rw [every_object_iff] at h ⊢
  refine ⟨Members.nodup_names_insert h.1 name value, fun member hmember => ?_⟩
  rcases Members.mem_insert hmember with rfl | hmember
  · exact hvalue
  · exact h.2 member hmember

theorem every_namesUnique_erase {members : Members} (h : Every NamesUnique (.object members))
    (name : String) : Every NamesUnique (.object (members.erase name)) := by
  rw [every_object_iff] at h ⊢
  refine ⟨Members.nodup_names_erase h.1 name, fun member hmember => ?_⟩
  exact h.2 member (List.mem_filter.mp hmember).1

end Json

end WebToken
