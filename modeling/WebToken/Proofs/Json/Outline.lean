import WebToken.Proofs.Json.FloatText
import WebToken.Proofs.Json.Shape

/-! What the text of a value may be read as. Numbers that are not whole may change, into what their own
text is read as, and all else is kept: names, strings, and how containers are filled. -/

namespace WebToken.Json

mutual

/-- The value with zero in place of every number. -/
def outline : Json → Json
  | number _ => number (.integer 0 (by decide))
  | array items => array (outlineItems items)
  | object members => object (outlineMembers members)
  | value => value

def outlineItems : List Json → List Json
  | [] => []
  | item :: items => item.outline :: outlineItems items

def outlineMembers : List (String × Json) → List (String × Json)
  | [] => []
  | (name, value) :: members => (name, value.outline) :: outlineMembers members

end

theorem outline_array (items : List Json) : (array items).outline = .array (items.map outline) := by
  rw [outline]
  congr 1
  induction items with
  | nil => rfl
  | cons item items ih => rw [outlineItems, ih, List.map_cons]

theorem outline_object (members : Members) :
    (object members).outline =
      .object (members.map fun member => (member.1, member.2.outline)) := by
  rw [outline]
  congr 1
  induction members with
  | nil => rfl
  | cons member members ih => rw [outlineMembers, ih, List.map_cons]

theorem asString?_outline (value : Json) : value.outline.asString? = value.asString? := by
  cases value <;> rfl

theorem find?_outline (members : Members) (name : String) :
    Members.find? (members.map fun member => (member.1, member.2.outline)) name =
      (members.find? name).map outline := by
  induction members with
  | nil => rfl
  | cons member members ih =>
      rw [List.map_cons, Members.find?_cons, Members.find?_cons, ih]
      by_cases hname : name = member.1
      · rw [if_pos hname, if_pos hname, Option.map_some]
      · rw [if_neg hname, if_neg hname]

/-- What a value may be read as: itself, but for numbers that are read as their text tells. -/
inductive ReadBack : Json → Json → Prop
  | refl (value : Json) : ReadBack value value
  | float {value : Binary64} {finite : value.isFinite = true} {found : JsonNumber}
      (h : readBack? value = some found) : ReadBack (.number (.float value finite)) (.number found)
  | array_cons {item found : Json} {items others : List Json} (hitem : ReadBack item found)
      (hitems : ReadBack (.array items) (.array others)) :
      ReadBack (.array (item :: items)) (.array (found :: others))
  | object_cons {name : String} {value found : Json} {members others : Members}
      (hvalue : ReadBack value found) (hmembers : ReadBack (.object members) (.object others)) :
      ReadBack (.object ((name, value) :: members)) (.object ((name, found) :: others))

namespace ReadBack

theorem outline {value found : Json} (h : ReadBack value found) : found.outline = value.outline := by
  induction h with
  | refl value => rfl
  | float h => rfl
  | array_cons _ _ hitem hitems =>
      rw [outline_array, outline_array, array.injEq] at hitems
      rw [outline_array, outline_array, List.map_cons, List.map_cons, hitem, hitems]
  | object_cons _ _ hvalue hmembers =>
      rw [outline_object, outline_object, object.injEq] at hmembers
      rw [outline_object, outline_object, List.map_cons, List.map_cons, hvalue, hmembers]

/-- If all numbers are whole a value is read as itself. -/
theorem exact {value found : Json} (h : ReadBack value found) (hintegral : Every Integral value) :
    found = value := by
  induction h with
  | refl value => rfl
  | float h => exact hintegral.here.elim
  | array_cons _ _ hitem hitems =>
      obtain ⟨_, hintegral⟩ := (every_array_iff _).mp hintegral
      obtain ⟨hhead, htail⟩ := List.forall_mem_cons.mp hintegral
      have hsame := hitems ((every_array_iff _).mpr ⟨trivial, htail⟩)
      rw [array.injEq] at hsame
      rw [hitem hhead, hsame]
  | object_cons _ _ hvalue hmembers =>
      obtain ⟨_, hintegral⟩ := (every_object_iff _).mp hintegral
      obtain ⟨hhead, htail⟩ := List.forall_mem_cons.mp hintegral
      have hsame := hmembers ((every_object_iff _).mpr ⟨trivial, htail⟩)
      rw [object.injEq] at hsame
      rw [hvalue hhead, hsame]

/-- An object may only be read as an object. -/
theorem exists_object {members : Members} {found : Json} (h : ReadBack (.object members) found) :
    ∃ others, found = .object others := by
  cases h with
  | refl => exact ⟨members, rfl⟩
  | object_cons hvalue hmembers => exact ⟨_, rfl⟩

/-- A member of an object is read under its name. -/
theorem find? {members others : Members} (h : ReadBack (.object members) (.object others))
    {name : String} {value : Json} (hvalue : members.find? name = some value) :
    ∃ found, others.find? name = some found ∧ ReadBack value found := by
  induction members generalizing others with
  | nil => cases hvalue
  | cons member members ih =>
      cases h with
      | refl => exact ⟨value, hvalue, .refl value⟩
      | object_cons hmember hmembers =>
          rw [Members.find?_cons] at hvalue
          rw [Members.find?_cons]
          split at hvalue
          · rename_i hname
            rw [if_pos hname]
            exact ⟨_, rfl, Option.some.inj hvalue ▸ hmember⟩
          · rename_i hname
            rw [if_neg hname]
            exact ih hmembers hvalue

end ReadBack

end WebToken.Json
