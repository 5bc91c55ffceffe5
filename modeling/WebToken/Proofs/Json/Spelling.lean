import WebToken.Proofs.Json.Numeral
import WebToken.Proofs.Json.Quoted
import WebToken.Proofs.Json.Shape

/-! The text of a value is put together from the texts of the values inside it. -/

namespace WebToken.Json

/-- The characters of the text of a value. -/
def spelling (value : Json) : List Char :=
  value.print.toList

/-- The characters of a name with its value. -/
def spellingOfMember (member : String × Json) : List Char :=
  quoted member.1 ++ ':' :: spelling member.2

/-- What follows the first of several texts: the others, each behind a comma. -/
def further {α : Type} (spell : α → List Char) (values : List α) : List Char :=
  values.flatMap fun value => ',' :: spell value

/-- Several texts with commas between them. -/
def listed {α : Type} (spell : α → List Char) : List α → List Char
  | [] => []
  | value :: values => spell value ++ further spell values

theorem further_cons {α : Type} (spell : α → List Char) (value : α) (values : List α) :
    further spell (value :: values) = ',' :: (spell value ++ further spell values) :=
  List.flatMap_cons

/-- Of several texts each stands between those before it, which a comma follows, and those behind it, which
follow a comma. -/
theorem listed_between {α : Type} (spell : α → List Char) (front : List α) (value : α)
    (back : List α) :
    listed spell (front ++ value :: back) =
      front.flatMap (fun other => spell other ++ [',']) ++ (spell value ++ further spell back) := by
  induction front with
  | nil => rfl
  | cons first front ih =>
      have hfurther : further spell (front ++ value :: back) =
          ',' :: listed spell (front ++ value :: back) := by
        cases front with
        | nil => exact further_cons spell value back
        | cons second front => exact further_cons spell second (front ++ value :: back)
      rw [List.cons_append, listed, hfurther, ih, List.flatMap_cons]
      simp only [List.append_assoc, List.cons_append, List.nil_append]

mutual

theorem toList_emit (out : String) (value : Json) :
    (emit out value).toList = out.toList ++ spelling value := by
  rw [spelling, print]
  match value with
  | .null | .bool true | .bool false | .number _ | .array [] | .object [] =>
      simp only [emit, String.toList_append, String.toList_empty, List.nil_append]
  | .string _ => simp only [emit, toList_emitString, String.toList_empty, List.nil_append]
  | .array (item :: items) =>
      simp only [emit, String.toList_push, toList_emitItems _ items, toList_emit _ item,
        String.toList_empty, List.nil_append, List.append_assoc]
  | .object ((name, member) :: members) =>
      simp only [emit, String.toList_push, toList_emitMembers _ members, toList_emit _ member,
        toList_emitString, String.toList_empty, List.nil_append, List.append_assoc]

theorem toList_emitItems (out : String) (items : List Json) :
    (emitItems out items).toList =
      out.toList ++ further spelling items := by
  match items with
  | [] => exact (List.append_nil _).symm
  | item :: items =>
      rw [emitItems, toList_emitItems _ items, toList_emit _ item, String.toList_push,
        further_cons]
      simp only [List.append_assoc, List.cons_append, List.nil_append]

theorem toList_emitMembers (out : String) (members : List (String × Json)) :
    (emitMembers out members).toList =
      out.toList ++ further spellingOfMember members := by
  match members with
  | [] => exact (List.append_nil _).symm
  | (name, value) :: members =>
      rw [emitMembers, toList_emitMembers _ members, toList_emit _ value, String.toList_push,
        toList_emitString, String.toList_push, further_cons, spellingOfMember]
      simp only [List.append_assoc, List.cons_append, List.nil_append]

end

theorem spelling_number (number : JsonNumber) :
    spelling (.number number) = (numberText number).toList := by
  rw [spelling, print, emit, String.empty_append]

theorem spelling_string (value : String) : spelling (.string value) = quoted value := by
  rw [spelling, print, emit, toList_emitString, String.toList_empty, List.nil_append]

theorem spelling_array (items : List Json) :
    spelling (.array items) = '[' :: (listed spelling items ++ [']']) := by
  cases items with
  | nil => rfl
  | cons item items =>
      rw [spelling, print, emit, String.toList_push, toList_emitItems, toList_emit,
        String.toList_push, String.toList_empty, listed]
      simp only [List.append_assoc, List.cons_append, List.nil_append]

theorem spelling_object (members : Members) :
    spelling (.object members) = '{' :: (listed spellingOfMember members ++ ['}']) := by
  cases members with
  | nil => rfl
  | cons member members =>
      rw [spelling, print, emit, String.toList_push, toList_emitMembers, toList_emit,
        String.toList_push, toList_emitString, String.toList_push, String.toList_empty, listed,
        spellingOfMember]
      simp only [List.append_assoc, List.cons_append, List.nil_append]

/-! ### Lengths -/

section

variable {α : Type} (spell : α → List Char)

theorem length_le_length_further (values : List α) :
    values.length ≤ (further spell values).length := by
  induction values with
  | nil => exact Nat.le_refl _
  | cons value values ih =>
      rw [further_cons, List.length_cons, List.length_cons, List.length_append]
      omega

theorem length_le_length_listed (values : List α) :
    values.length ≤ (listed spell values).length + 1 := by
  cases values with
  | nil => exact Nat.zero_le _
  | cons value values =>
      have hvalues := length_le_length_further spell values
      rw [listed, List.length_append, List.length_cons]
      omega

theorem length_spell_le_length_listed {values : List α} {value : α} (h : value ∈ values) :
    (spell value).length ≤ (listed spell values).length := by
  cases values with
  | nil => cases h
  | cons first values =>
      rw [listed, List.length_append]
      rcases List.mem_cons.mp h with rfl | h
      · exact Nat.le_add_right _ _
      · have hsublist := List.sublist_flatten_of_mem (List.mem_map_of_mem (f := (',' :: spell ·)) h)
        have hlength := hsublist.length_le
        rw [further, List.flatMap_def]
        rw [List.length_cons] at hlength
        omega

end

theorem length_spelling_array (items : List Json) :
    (spelling (.array items)).length = (listed spelling items).length + 2 := by
  rw [spelling_array, List.length_cons, List.length_append, List.length_singleton]

theorem length_spelling_object (members : Members) :
    (spelling (.object members)).length = (listed spellingOfMember members).length + 2 := by
  rw [spelling_object, List.length_cons, List.length_append, List.length_singleton]

theorem length_name_lt_of_mem {members : Members} {member : String × Json} (h : member ∈ members) :
    member.1.toList.length < (spelling (.object members)).length := by
  have hname := length_lt_length_quoted member.1
  have hmember := length_spell_le_length_listed spellingOfMember h
  rw [spellingOfMember, List.length_append] at hmember
  rw [length_spelling_object]
  omega

/-- The text of a container is longer than the texts inside it. -/
theorem length_spelling_lt_of_mem_parts {value part : Json} (h : part ∈ value.parts) :
    (spelling part).length < (spelling value).length := by
  cases value with
  | array items =>
      have hitem := length_spell_le_length_listed spelling (show part ∈ items from h)
      rw [length_spelling_array]
      omega
  | object members =>
      obtain ⟨member, hmem, rfl⟩ := List.mem_map.mp h
      have hmember := length_spell_le_length_listed spellingOfMember hmem
      rw [spellingOfMember, List.length_append, List.length_cons] at hmember
      rw [length_spelling_object]
      omega
  | _ => cases h

end WebToken.Json
