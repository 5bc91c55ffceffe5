import WebToken.Json.Parser
import WebToken.Proofs.Json.FloatText
import WebToken.Proofs.Json.Outline
import WebToken.Proofs.Json.Spelling

/-! The text of a value is read to its end, if its names are unique and its containers not too deep:
what is found is the value, but for numbers that are not whole. A value that is too deep is refused.
Each reader is shown to end so on the text of what it is to read, from the scalars up to objects; the
step into a container is the only one that takes from the depth. -/

namespace WebToken.Json

/-- A text that starts like a value: neither with a blank nor with the end of a list. -/
def Opening (text : List Char) : Prop :=
  ∃ head tail, text = head :: tail ∧ Cursor.isBlank head = false ∧ head ≠ ']'

theorem Opening.append {text : List Char} (h : Opening text) (rest : List Char) :
    Opening (text ++ rest) := by
  obtain ⟨head, tail, rfl, hblank, hend⟩ := h
  exact ⟨head, tail ++ rest, rfl, hblank, hend⟩

theorem Opening.skipBlanks {text : List Char} (h : Opening text) (offset : Nat) :
    Cursor.skipBlanks ⟨text, offset⟩ = ⟨text, offset⟩ := by
  obtain ⟨head, tail, rfl, hblank, _⟩ := h
  rw [Cursor.skipBlanks, Cursor.skipBlanks.go, hblank]
  rfl

theorem closing_further {α : Type} (spell : α → List Char) (values : List α) {close : Char}
    (hclose : close = ',' ∨ close = ']' ∨ close = '}') (rest : List Char) :
    Closing (further spell values ++ close :: rest) := by
  cases values with
  | nil => exact closing_cons hclose rest
  | cons => exact closing_cons (Or.inl rfl) _

/-! ### Ends -/

/-- What is so deep is read up to what follows it, if it may be so deep, and else refused. -/
def Ends {α : Type} (depth limit : Nat) (rest : List Char) (Found : α → Prop)
    (result : Except Stop (α × Cursor)) : Prop :=
  (depth ≤ limit ∧ ∃ found after, result = .ok (found, ⟨rest, after⟩) ∧ Found found) ∨
    (limit < depth ∧ ∃ stop, result = .error stop)

namespace Ends

variable {α β : Type} {depth further limit : Nat} {between rest : List Char} {Found Other : α → Prop}
  {Result : β → Prop} {result : Except Stop (α × Cursor)}

theorem of_ok {found : α} (after : Nat) (h : result = .ok (found, ⟨rest, after⟩))
    (hfound : Found found) : Ends 0 limit rest Found result :=
  Or.inl ⟨Nat.zero_le _, found, after, h, hfound⟩

theorem mono (h : Ends depth limit rest Found result) (hfound : ∀ found, Found found → Other found) :
    Ends depth limit rest Other result := by
  rcases h with ⟨hdepth, found, after, hresult, h⟩ | hdeep
  · exact Or.inl ⟨hdepth, found, after, hresult, hfound found h⟩
  · exact Or.inr hdeep

/-- What is read in two steps is as deep as the deeper of the two. -/
theorem bind {next : α × Cursor → Except Stop (β × Cursor)} (h : Ends depth limit between Found result)
    (hnext : ∀ found after, Found found →
      Ends further limit rest Result (next (found, ⟨between, after⟩))) :
    Ends (max depth further) limit rest Result (result >>= next) := by
  rcases h with ⟨hdepth, found, after, rfl, hfound⟩ | ⟨hdeep, stop, rfl⟩
  · rcases hnext found after hfound with ⟨hfurther, hresult⟩ | ⟨hdeep, hresult⟩
    · exact Or.inl ⟨Nat.max_le.mpr ⟨hdepth, hfurther⟩, hresult⟩
    · exact Or.inr ⟨Nat.lt_of_lt_of_le hdeep (Nat.le_max_right _ _), hresult⟩
  · exact Or.inr ⟨Nat.lt_of_lt_of_le hdeep (Nat.le_max_left _ _), stop, rfl⟩

theorem inside (h : Ends depth limit rest Found result) :
    Ends (depth + 1) (limit + 1) rest Found result := by
  rcases h with ⟨hdepth, hresult⟩ | ⟨hdeep, hresult⟩
  · exact Or.inl ⟨Nat.succ_le_succ hdepth, hresult⟩
  · exact Or.inr ⟨Nat.succ_lt_succ hdeep, hresult⟩

end Ends

/-- The reader ends so on the text of the value, whatever may follow it. -/
def Reads (limit : Nat) (read : Cursor → Except Stop (Json × Cursor)) (value : Json) : Prop :=
  ∀ rest offset, Closing rest →
    Ends value.depth limit rest (ReadBack value) (read ⟨spelling value ++ rest, offset⟩)

/-! ### Scalars -/

theorem readNumber_numberText (number : JsonNumber) {rest : List Char} (hrest : Closing rest)
    (offset : Nat) :
    ∃ found after, readNumber ⟨(numberText number).toList ++ rest, offset⟩ =
      .ok (found, ⟨rest, after⟩) ∧ ReadBack (.number number) (.number found) := by
  cases number with
  | integer value bounded =>
      obtain ⟨after, hread⟩ := readNumber_integerText bounded hrest offset
      exact ⟨_, after, hread, .refl _⟩
  | float value finite =>
      obtain ⟨found, after, hfound, hread⟩ := readNumber_floatText finite hrest offset
      exact ⟨found, after, hread, .float hfound⟩

theorem numberText_head (number : JsonNumber) :
    ∃ head tail, (numberText number).toList = head :: tail ∧
      (head = '-' ∨ head.isDigit = true) := by
  obtain ⟨found, after, hread, _⟩ := readNumber_numberText number closing_nil 0
  rw [List.append_nil] at hread
  exact head_of_readNumber hread

/-- A value that starts like a number is read as one. -/
theorem readValue_numeral {head : Char} (h : head = '-' ∨ head.isDigit = true) (rounds depth : Nat)
    (tail : List Char) (offset : Nat) :
    readValue rounds depth ⟨head :: tail, offset⟩ =
      readNumber ⟨head :: tail, offset⟩ >>= fun (numeral, cursor) =>
        .ok (.number numeral, cursor) := by
  rw [readValue]
  split
  all_goals
    rename_i heq
    cases heq
  all_goals first
    | exact absurd h (by decide)
    | exact if_pos h

theorem spelling_opening (value : Json) : Opening (spelling value) := by
  cases value with
  | null => exact ⟨'n', _, rfl, rfl, by decide⟩
  | bool value => cases value <;> exact ⟨_, _, rfl, rfl, by decide⟩
  | number number =>
      obtain ⟨head, tail, htext, hhead⟩ := numberText_head number
      rw [spelling_number, htext]
      refine ⟨head, tail, rfl, ?_, ?_⟩
      · cases hblank : Cursor.isBlank head with
        | false => rfl
        | true =>
            simp only [Cursor.isBlank, Bool.or_eq_true, beq_iff_eq] at hblank
            rcases hblank with ((rfl | rfl) | rfl) | rfl <;> exact absurd hhead (by decide)
      · rintro rfl
        exact absurd hhead (by decide)
  | string value =>
      rw [spelling_string]
      exact ⟨'"', _, rfl, rfl, by decide⟩
  | array items =>
      rw [spelling_array]
      exact ⟨'[', _, rfl, rfl, by decide⟩
  | object members =>
      rw [spelling_object]
      exact ⟨'{', _, rfl, rfl, by decide⟩

theorem reads_null (rounds depth : Nat) : Reads depth (readValue rounds depth) .null := by
  intro rest offset _
  refine .of_ok (offset + 4) ?_ (.refl _)
  rw [readValue]
  rfl

theorem reads_bool (rounds depth : Nat) (value : Bool) :
    Reads depth (readValue rounds depth) (.bool value) := by
  intro rest offset _
  rw [readValue]
  cases value with
  | true => exact .of_ok (offset + 4) rfl (.refl _)
  | false => exact .of_ok (offset + 5) rfl (.refl _)

theorem reads_number (rounds depth : Nat) (number : JsonNumber) :
    Reads depth (readValue rounds depth) (.number number) := by
  intro rest offset hrest
  obtain ⟨head, tail, htext, hhead⟩ := numberText_head number
  obtain ⟨found, after, hread, hfound⟩ := readNumber_numberText number hrest offset
  refine .of_ok after ?_ hfound
  rw [spelling_number]
  rw [htext] at hread ⊢
  rw [List.cons_append, readValue_numeral hhead, ← List.cons_append, hread]
  rfl

theorem reads_string {rounds : Nat} {value : String} (hrounds : value.toList.length < rounds)
    (depth : Nat) : Reads depth (readValue rounds depth) (.string value) := by
  intro rest offset _
  obtain ⟨after, hread⟩ := readString_quoted value hrounds rest (offset + 1)
  refine .of_ok after ?_ (.refl _)
  rw [spelling_string, readValue]
  change (readString rounds "" ⟨(quoted value).tail ++ rest, offset + 1⟩ >>= _) = _
  rw [hread]
  rfl

/-! ### Lists -/

section

variable {readItem : Cursor → Except Stop (Json × Cursor)} {limit : Nat}

theorem readItems_comma {text : List Char} (h : Opening text) (rounds : Nat) (done : List Json)
    (offset : Nat) :
    readItems readItem (rounds + 1) done ⟨',' :: text, offset⟩ =
      readItem ⟨text, offset + 1⟩ >>= fun (item, cursor) =>
        readItems readItem rounds (item :: done) cursor := by
  have hcomma : Cursor.skipBlanks ⟨',' :: text, offset⟩ = ⟨',' :: text, offset⟩ := rfl
  rw [readItems, hcomma]
  simp only [h.skipBlanks]
  obtain ⟨head, tail, rfl, _, hend⟩ := h
  split
  · rename_i heq
    cases heq
  · rename_i heq
    cases heq
    exact absurd rfl hend
  · rfl

/-- The items behind the first are read one in a round. -/
theorem readItems_further {items : List Json} (hitems : ∀ item ∈ items, Reads limit readItem item)
    {rounds : Nat} (hrounds : items.length < rounds) (done : List Json) (rest : List Char)
    (offset : Nat) :
    Ends (depthOfItems items) limit rest
      (fun value => ∃ found, value = .array (done.reverse ++ found) ∧
        ReadBack (.array items) (.array found))
      (readItems readItem rounds done ⟨further spelling items ++ ']' :: rest, offset⟩) := by
  induction items generalizing rounds done offset with
  | nil =>
      obtain ⟨rounds, rfl⟩ := Nat.exists_eq_add_of_lt hrounds
      exact .of_ok (offset + 1) rfl ⟨[], by rw [List.append_nil], .refl _⟩
  | cons item items ih =>
      cases rounds with
      | zero => cases hrounds
      | succ rounds =>
          obtain ⟨hitem, hitems⟩ := List.forall_mem_cons.mp hitems
          rw [further_cons, List.cons_append, List.append_assoc,
            readItems_comma ((spelling_opening item).append _)]
          refine (hitem _ _ (closing_further spelling items (Or.inr (Or.inl rfl)) rest)).bind
            fun found next hfound => ?_
          refine (ih hitems (Nat.lt_of_succ_lt_succ hrounds) (found :: done) next).mono ?_
          rintro value ⟨others, rfl, hothers⟩
          refine ⟨found :: others, ?_, hfound.array_cons hothers⟩
          rw [List.reverse_cons, List.append_assoc, List.singleton_append]

theorem readList_opening {text : List Char} (h : Opening text) (rounds offset : Nat) :
    readList readItem rounds ⟨text, offset⟩ =
      readItem ⟨text, offset⟩ >>= fun (item, cursor) =>
        readItems readItem rounds [item] cursor := by
  rw [readList]
  simp only [h.skipBlanks]
  obtain ⟨head, tail, rfl, _, hend⟩ := h
  split
  · rename_i heq
    cases heq
  · rename_i heq
    cases heq
    exact absurd rfl hend
  · rfl

theorem readList_listed {items : List Json} (hitems : ∀ item ∈ items, Reads limit readItem item)
    {rounds : Nat} (hrounds : items.length ≤ rounds) (rest : List Char) (offset : Nat) :
    Ends (depthOfItems items) limit rest (ReadBack (.array items))
      (readList readItem rounds ⟨listed spelling items ++ ']' :: rest, offset⟩) := by
  cases items with
  | nil => exact .of_ok (offset + 1) rfl (.refl _)
  | cons item items =>
      obtain ⟨hitem, hitems⟩ := List.forall_mem_cons.mp hitems
      rw [listed, List.append_assoc, readList_opening ((spelling_opening item).append _)]
      refine (hitem _ _ (closing_further spelling items (Or.inr (Or.inl rfl)) rest)).bind
        fun found next hfound => ?_
      refine (readItems_further hitems hrounds [found] rest next).mono ?_
      rintro value ⟨others, rfl, hothers⟩
      exact hfound.array_cons hothers

/-! ### Objects -/

/-- A member is read with its name. -/
theorem readMember_spelling {member : String × Json} (hvalue : Reads limit readItem member.2)
    {rounds : Nat} (hrounds : member.1.toList.length < rounds) {rest : List Char}
    (hrest : Closing rest) (offset : Nat) :
    Ends member.2.depth limit rest (fun found => found.1 = member.1 ∧ ReadBack member.2 found.2)
      (readMember readItem rounds ⟨spellingOfMember member ++ rest, offset⟩) := by
  obtain ⟨colon, hname⟩ := readString_quoted member.1 hrounds
    (':' :: (spelling member.2 ++ rest)) (offset + 1)
  have hcolon : Cursor.skipBlanks ⟨':' :: (spelling member.2 ++ rest), colon⟩ =
      ⟨':' :: (spelling member.2 ++ rest), colon⟩ := rfl
  have hstart : Cursor.advance ⟨spellingOfMember member ++ rest, offset⟩ 1 =
      ⟨(quoted member.1).tail ++ ':' :: (spelling member.2 ++ rest), offset + 1⟩ := by
    rw [spellingOfMember, List.append_assoc]
    rfl
  rw [readMember, hstart, hname, ← Nat.max_zero member.2.depth]
  change Ends _ _ _ _ (readItem _ >>= _)
  rw [((spelling_opening member.2).append rest).skipBlanks]
  exact (hvalue rest (colon + 1) hrest).bind fun found after hfound =>
    .of_ok after rfl ⟨rfl, hfound⟩

theorem readMembers_comma (member : String × Json) (text : List Char) (limit rounds : Nat)
    (done : Members) (offset : Nat) :
    readMembers readItem limit (rounds + 1) done
        ⟨',' :: (spellingOfMember member ++ text), offset⟩ =
      readMember readItem limit ⟨spellingOfMember member ++ text, offset + 1⟩ >>=
        fun (member, cursor) =>
          readMembers readItem limit rounds (done.insert member.1 member.2) cursor :=
  rfl

theorem readObject_opening (member : String × Json) (text : List Char) (rounds offset : Nat) :
    readObject readItem rounds ⟨spellingOfMember member ++ text, offset⟩ =
      readMember readItem rounds ⟨spellingOfMember member ++ text, offset⟩ >>=
        fun (member, cursor) => readMembers readItem rounds rounds [member] cursor :=
  rfl

theorem names_append (front back : Members) :
    Members.names (front ++ back) = front.names ++ back.names :=
  List.map_append

/-- The members behind the first are read one in a round, and each comes last. -/
theorem readMembers_further {members : Members}
    (hvalues : ∀ member ∈ members, Reads limit readItem member.2) {most : Nat}
    (hmost : ∀ member ∈ members, member.1.toList.length < most) {rounds : Nat}
    (hrounds : members.length < rounds) {done : Members}
    (hunique : (Members.names (done ++ members)).Nodup) (rest : List Char) (offset : Nat) :
    Ends (depthOfMembers members) limit rest
      (fun value => ∃ found, value = .object (done ++ found) ∧
        ReadBack (.object members) (.object found))
      (readMembers readItem most rounds done
        ⟨further spellingOfMember members ++ '}' :: rest, offset⟩) := by
  induction members generalizing rounds done offset with
  | nil =>
      obtain ⟨rounds, rfl⟩ := Nat.exists_eq_add_of_lt hrounds
      exact .of_ok (offset + 1) rfl ⟨[], by rw [List.append_nil], .refl _⟩
  | cons member members ih =>
      cases rounds with
      | zero => cases hrounds
      | succ rounds =>
          obtain ⟨hvalue, hvalues⟩ := List.forall_mem_cons.mp hvalues
          obtain ⟨hname, hmost⟩ := List.forall_mem_cons.mp hmost
          have hnew : member.1 ∉ Members.names done := by
            rw [names_append, List.nodup_append] at hunique
            exact fun hmem => hunique.2.2 _ hmem _ List.mem_cons_self rfl
          rw [further_cons, List.cons_append, List.append_assoc, readMembers_comma]
          refine (readMember_spelling hvalue hname
            (closing_further spellingOfMember members (Or.inr (Or.inr rfl)) rest) _).bind ?_
          rintro ⟨name, found⟩ next ⟨rfl, hfound⟩
          -- The name is new, so that the member is added behind the others.
          have hnames : (Members.names (done ++ [(member.1, found)] ++ members)).Nodup := by
            rw [names_append] at hunique
            rw [List.append_assoc, names_append]
            exact hunique
          dsimp only
          rw [Members.insert_of_not_mem hnew]
          refine (ih hvalues hmost (Nat.lt_of_succ_lt_succ hrounds) hnames next).mono ?_
          rintro value ⟨others, rfl, hothers⟩
          refine ⟨(member.1, found) :: others, ?_, hfound.object_cons hothers⟩
          rw [List.append_assoc, List.singleton_append]

theorem readObject_listed {members : Members}
    (hvalues : ∀ member ∈ members, Reads limit readItem member.2) {rounds : Nat}
    (hnames : ∀ member ∈ members, member.1.toList.length < rounds)
    (hrounds : members.length ≤ rounds) (hunique : members.names.Nodup) (rest : List Char)
    (offset : Nat) :
    Ends (depthOfMembers members) limit rest (ReadBack (.object members))
      (readObject readItem rounds ⟨listed spellingOfMember members ++ '}' :: rest, offset⟩) := by
  cases members with
  | nil => exact .of_ok (offset + 1) rfl (.refl _)
  | cons member members =>
      obtain ⟨hvalue, hvalues⟩ := List.forall_mem_cons.mp hvalues
      obtain ⟨hname, hnames⟩ := List.forall_mem_cons.mp hnames
      rw [listed, List.append_assoc, readObject_opening]
      refine (readMember_spelling hvalue hname
        (closing_further spellingOfMember members (Or.inr (Or.inr rfl)) rest) _).bind ?_
      rintro ⟨name, found⟩ next ⟨rfl, hfound⟩
      have hunique : (Members.names ([(member.1, found)] ++ members)).Nodup := hunique
      refine (readMembers_further hvalues hnames hrounds hunique rest next).mono ?_
      rintro value ⟨others, rfl, hothers⟩
      exact hfound.object_cons hothers

end

/-! ### Values -/

theorem reads_array {rounds depth : Nat} {items : List Json}
    (hitems : ∀ item ∈ items, Reads depth (readValue rounds depth) item)
    (hrounds : items.length ≤ rounds) :
    Reads (depth + 1) (readValue rounds (depth + 1)) (.array items) := by
  intro rest offset _
  rw [spelling_array, List.cons_append, List.append_assoc]
  exact (readList_listed hitems hrounds rest (offset + 1)).inside

theorem reads_object {rounds depth : Nat} {members : Members}
    (hvalues : ∀ member ∈ members, Reads depth (readValue rounds depth) member.2)
    (hnames : ∀ member ∈ members, member.1.toList.length < rounds)
    (hrounds : members.length ≤ rounds) (hunique : members.names.Nodup) :
    Reads (depth + 1) (readValue rounds (depth + 1)) (.object members) := by
  intro rest offset _
  rw [spelling_object, List.cons_append, List.append_assoc]
  exact (readObject_listed hvalues hnames hrounds hunique rest (offset + 1)).inside

/-- As many rounds as the text has characters are enough to read it. -/
theorem reads_readValue {rounds : Nat} {value : Json} (hunique : Every NamesUnique value)
    (hrounds : (spelling value).length ≤ rounds) (depth : Nat) :
    Reads depth (readValue rounds depth) value := by
  -- Each step into a container takes one from the depth.
  induction depth using Nat.strongRecOn generalizing value with
  | ind depth ih =>
      have hparts : ∀ inner < depth, ∀ part ∈ value.parts,
          Reads inner (readValue rounds inner) part := by
        intro inner hinner part hpart
        have hlength := length_spelling_lt_of_mem_parts hpart
        exact ih inner hinner (hunique.inside hpart) (by omega)
      cases value with
      | null => exact reads_null rounds depth
      | bool value => exact reads_bool rounds depth value
      | number number => exact reads_number rounds depth number
      | string value =>
          rw [spelling_string] at hrounds
          exact reads_string (Nat.lt_of_lt_of_le (length_lt_length_quoted value) hrounds) depth
      | array items =>
          cases depth with
          | zero =>
              intro rest offset _
              rw [spelling_array]
              exact Or.inr ⟨Nat.zero_lt_succ _, _, rfl⟩
          | succ inner =>
              refine reads_array (hparts inner (Nat.lt_succ_self _)) ?_
              have hlength := length_le_length_listed spelling items
              rw [length_spelling_array] at hrounds
              omega
      | object members =>
          cases depth with
          | zero =>
              intro rest offset _
              rw [spelling_object]
              exact Or.inr ⟨Nat.zero_lt_succ _, _, rfl⟩
          | succ inner =>
              refine reads_object (fun member hmem => ?_) (fun member hmem => ?_) ?_ hunique.here
              · exact hparts inner (Nat.lt_succ_self _) _ (List.mem_map_of_mem hmem)
              · exact Nat.lt_of_lt_of_le (length_name_lt_of_mem hmem) hrounds
              · have hlength := length_le_length_listed spellingOfMember members
                rw [length_spelling_object] at hrounds
                omega

/-- The text of a value is read if and only if the value is not too deep. -/
theorem parse_print_cases {value : Json} (hunique : Every NamesUnique value) :
    (value.depth ≤ depthLimit ∧ ∃ found, parse value.print = .ok found ∧ ReadBack value found) ∨
      (depthLimit < value.depth ∧ ∃ fault, parse value.print = .error fault) := by
  have hstart : Cursor.skipBlanks (Cursor.start (spelling value)) = ⟨spelling value, 0⟩ :=
    (spelling_opening value).skipBlanks 0
  have hends := reads_readValue hunique (Nat.le_refl _) depthLimit [] 0 closing_nil
  rw [List.append_nil] at hends
  rcases hends with ⟨hdepth, found, after, hread, hfound⟩ | ⟨hdeep, stop, hread⟩
  · have htext : readText value.print.toList = .ok found := by
      rw [← spelling, readText, hstart, hread]
      rfl
    refine Or.inl ⟨hdepth, found, ?_, hfound⟩
    rw [parse, htext]
  · have htext : readText value.print.toList = .error stop := by
      rw [← spelling, readText, hstart, hread]
      rfl
    refine Or.inr ⟨hdeep, stop.locate value.print.toList, ?_⟩
    rw [parse, htext]

/-- A value that is not too deep is read back from its text. -/
theorem parse_print {value : Json} (hdepth : value.depth ≤ depthLimit)
    (hintegral : Every Integral value) (hunique : Every NamesUnique value) :
    parse value.print = .ok value := by
  obtain ⟨_, found, hparse, hfound⟩ | ⟨hdeep, _⟩ := parse_print_cases hunique
  · rw [hparse, hfound.exact hintegral]
  · exact absurd hdepth (Nat.not_le.mpr hdeep)

/-- What the text of a value is read as differs from the value in numbers only. -/
theorem outline_of_parse_print {value found : Json} (hunique : Every NamesUnique value)
    (h : parse value.print = .ok found) : found.outline = value.outline := by
  obtain ⟨_, other, hparse, hother⟩ | ⟨_, fault, hparse⟩ := parse_print_cases hunique
  · rw [h] at hparse
    cases hparse
    exact hother.outline
  · rw [h] at hparse
    cases hparse

end WebToken.Json
