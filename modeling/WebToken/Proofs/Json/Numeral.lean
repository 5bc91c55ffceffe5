import WebToken.Json.Numeral
import WebToken.Json.Printer

/-! How numerals are read: by what they start with, how far their digits reach, and what these add up to.
A whole number of 64 bits reads back as it was written. -/

namespace WebToken.Json

/-- What may follow a value: nothing, a comma, or the end of a container. -/
def Closing (rest : List Char) : Prop :=
  ∀ char ∈ rest.head?, char = ',' ∨ char = ']' ∨ char = '}'

theorem closing_nil : Closing [] := fun _ h => nomatch h

theorem closing_cons {char : Char} (h : char = ',' ∨ char = ']' ∨ char = '}') (rest : List Char) :
    Closing (char :: rest) := by
  intro head hhead
  cases hhead
  exact h

theorem Closing.not_head {rest : List Char} (h : Closing rest) {char : Char}
    (hchar : ¬(char = ',' ∨ char = ']' ∨ char = '}')) : rest.head? ≠ some char :=
  fun hhead => hchar (h char hhead)

/-! ### Digits -/

theorem Closing.not_digit {rest : List Char} (h : Closing rest) :
    ∀ char ∈ rest.head?, char.isDigit = false := by
  intro char hchar
  rcases h char hchar with rfl | rfl | rfl <;> rfl

theorem not_digit_cons {char : Char} (h : char.isDigit = false) (rest : List Char) :
    ∀ head ∈ (char :: rest).head?, head.isDigit = false := by
  intro head hhead
  cases hhead
  exact h

theorem digits_append {digits rest : List Char} (hdigits : ∀ char ∈ digits, char.isDigit = true)
    (hrest : ∀ char ∈ rest.head?, char.isDigit = false) (offset : Nat) :
    Cursor.digits ⟨digits ++ rest, offset⟩ =
      (digits.map fun char => char.toNat - 48, ⟨rest, offset + digits.length⟩) := by
  have hnone : rest.takeWhile Char.isDigit = [] := by
    cases rest with
    | nil => rfl
    | cons char rest =>
        rw [List.takeWhile_cons, hrest char rfl]
        rfl
  have hahead : (digits ++ rest).takeWhile Char.isDigit = digits := by
    rw [List.takeWhile_append_of_pos hdigits, hnone, List.append_nil]
  simp only [Cursor.digits, hahead, Cursor.advance, List.drop_left]

theorem le_ofDigitChars (digits : List Char) (start : Nat) :
    start ≤ Nat.ofDigitChars 10 digits start := by
  rw [Nat.ofDigitChars_eq_ofDigitChars_zero]
  exact Nat.le_trans (Nat.le_mul_of_pos_left start (Nat.pow_pos (by decide)))
    (Nat.le_add_right _ _)

/-- Digits of a number that fits are all gathered. -/
theorem gathered_digits (digits : List Char) (gathered : Gathered)
    (h : Nat.ofDigitChars 10 digits gathered.significand < 0x10000000000000000) :
    gathered.digits (digits.map fun char => char.toNat - 48) =
      ⟨Nat.ofDigitChars 10 digits gathered.significand, gathered.taken + digits.length,
        gathered.dropped⟩ := by
  induction digits generalizing gathered with
  | nil => rw [Nat.ofDigitChars_nil]; rfl
  | cons char digits ih =>
      rw [Nat.ofDigitChars_cons, Nat.mul_comm] at h
      have hfits : gathered.significand * 10 + (char.toNat - 48) < 0x10000000000000000 :=
        Nat.lt_of_le_of_lt (le_ofDigitChars digits _) h
      rw [List.map_cons, Gathered.digits, if_pos hfits, ih _ h, Nat.ofDigitChars_cons,
        Nat.mul_comm 10, List.length_cons, Nat.add_assoc, Nat.add_comm 1]
      rfl

/-- Only zero is written with a leading zero. -/
theorem head?_toDigits {value : Nat} (h : 0 < value) :
    (Nat.toDigits 10 value).head? ≠ some '0' := by
  induction value using Nat.base_induction 10 (by decide) with
  | single value hlt =>
      rw [Nat.toDigits_of_lt_base hlt]
      revert value
      decide
  | digit first last hlt hpos ih =>
      obtain ⟨head, tail, hdigits⟩ := List.exists_cons_of_ne_nil (Nat.toDigits_ne_nil (b := 10))
      rw [hdigits] at ih
      rw [← Nat.toDigits_append_toDigits (by decide) hpos hlt, hdigits]
      exact ih hpos

theorem isDigit_of_mem_toDigits {value : Nat} {char : Char} (h : char ∈ Nat.toDigits 10 value) :
    char.isDigit = true :=
  Nat.isDigit_of_mem_toDigits (by decide) (by decide) h

theorem isDigit_of_head_toDigits {value : Nat} {char : Char} {digits : List Char}
    (h : Nat.toDigits 10 value = char :: digits) : char.isDigit = true := by
  have hmem : char ∈ Nat.toDigits 10 value := by
    rw [h]
    exact List.mem_cons_self
  exact isDigit_of_mem_toDigits hmem

/-- The digits that a numeral can start with, before a point or an exponent: at least one, no zero in
front of others, and no more than fit. -/
structure WholePart (digits : List Char) : Prop where
  isDigit : ∀ char ∈ digits, char.isDigit = true
  ne_nil : digits ≠ []
  leading : digits.head? = some '0' → digits.length = 1
  fits : Nat.ofDigitChars 10 digits 0 < 0x10000000000000000

theorem wholePart_toDigits {value : Nat} (h : value < 0x10000000000000000) :
    WholePart (Nat.toDigits 10 value) where
  isDigit _ hchar := isDigit_of_mem_toDigits hchar
  ne_nil := Nat.toDigits_ne_nil
  leading hhead := by
    rcases Nat.eq_zero_or_pos value with rfl | hpos
    · rfl
    · exact absurd hhead (head?_toDigits hpos)
  fits := by
    rw [Nat.ofDigitChars_ten_toDigits]
    exact h

/-! ### Reading back -/

/-- What is read behind the whole part depends on how the text goes on there: with a point, with an
exponent, or with neither. -/
theorem readMagnitude_wholePart (negative : Bool) {digits rest : List Char} (h : WholePart digits)
    (hrest : ∀ char ∈ rest.head?, char.isDigit = false) (offset : Nat) :
    readMagnitude negative ⟨digits ++ rest, offset⟩ =
      let after : Cursor := ⟨rest, offset + digits.length⟩
      match after.rest with
      | '.' :: _ => readFraction negative ⟨Nat.ofDigitChars 10 digits 0, digits.length, 0⟩
          (after.advance 1)
      | _ =>
          if after.rest.head? ≠ some 'e' ∧ after.rest.head? ≠ some 'E' then
            finishNumber (wholeNumber negative (Nat.ofDigitChars 10 digits 0)) after
          else readScaled negative (Nat.ofDigitChars 10 digits 0) 0 after := by
  rw [readMagnitude, digits_append h.isDigit hrest]
  simp only
  split
  · rename_i hempty
    exact absurd (List.map_eq_nil_iff.mp hempty) h.ne_nil
  · rename_i second others hleading
    obtain ⟨char, tail, rfl, hzero, htail⟩ := List.map_eq_cons_iff.mp hleading
    obtain ⟨next, last, rfl, _, _⟩ := List.map_eq_cons_iff.mp htail
    have hbounds : 48 ≤ char.toNat ∧ char.toNat ≤ 57 :=
      Char.isDigit_iff_toNat.mp (h.isDigit char List.mem_cons_self)
    have hcode : char.toNat = 48 := by omega
    have hhead : char = '0' := by rw [← Char.ofNat_toNat char, hcode]
    have hone := h.leading (congrArg some hhead)
    cases hone
  · rw [gathered_digits digits ⟨0, 0, 0⟩ h.fits, Nat.zero_add]
    split
    · rfl
    · simp only [true_and]
      rfl

theorem readMagnitude_toDigits (negative : Bool) {value : Nat} (h : value < 0x10000000000000000)
    {rest : List Char} (hrest : Closing rest) (offset : Nat) :
    ∃ after, readMagnitude negative ⟨Nat.toDigits 10 value ++ rest, offset⟩ =
      finishNumber (wholeNumber negative value) ⟨rest, after⟩ := by
  refine ⟨offset + (Nat.toDigits 10 value).length, ?_⟩
  rw [readMagnitude_wholePart negative (wholePart_toDigits h) hrest.not_digit,
    Nat.ofDigitChars_ten_toDigits]
  dsimp only
  split
  · rename_i tail
    have hpoint : ('.' :: tail).head? ≠ some '.' := hrest.not_head (by decide)
    exact absurd rfl hpoint
  · rw [if_pos ⟨hrest.not_head (by decide), hrest.not_head (by decide)⟩]

/-- What is read behind a sign starts with a digit. -/
theorem isDigit_of_readMagnitude {negative : Bool} {head : Char} {tail : List Char} {offset : Nat}
    {result : JsonNumber × Cursor} (h : readMagnitude negative ⟨head :: tail, offset⟩ = .ok result) :
    head.isDigit = true := by
  cases hdigit : head.isDigit with
  | true => rfl
  | false =>
      have hnone : (Cursor.digits ⟨head :: tail, offset⟩).1 = [] := by
        rw [Cursor.digits, List.takeWhile_cons, hdigit]
        rfl
      rw [readMagnitude] at h
      simp only [hnone] at h
      cases h

theorem readNumber_of_readMagnitude {cursor : Cursor} {result : JsonNumber × Cursor}
    (h : readMagnitude false cursor = .ok result) : readNumber cursor = .ok result := by
  rw [readNumber]
  split
  · rename_i tail hsign
    obtain ⟨rest, offset⟩ := cursor
    obtain rfl : rest = '-' :: tail := hsign
    cases isDigit_of_readMagnitude h
  · exact h

/-- What is read as a number starts with its sign or a digit. -/
theorem head_of_readNumber {text : List Char} {offset : Nat} {result : JsonNumber × Cursor}
    (h : readNumber ⟨text, offset⟩ = .ok result) :
    ∃ head tail, text = head :: tail ∧ (head = '-' ∨ head.isDigit = true) := by
  cases text with
  | nil => cases h
  | cons head tail =>
      refine ⟨head, tail, rfl, ?_⟩
      rw [readNumber] at h
      split at h
      · rename_i hsign
        cases hsign
        exact Or.inl rfl
      · exact Or.inr (isDigit_of_readMagnitude h)

theorem readNumber_toDigits {value : Nat} (h : value < 0x10000000000000000) {rest : List Char}
    (hrest : Closing rest) (offset : Nat) :
    ∃ after, readNumber ⟨Nat.toDigits 10 value ++ rest, offset⟩ =
      finishNumber (wholeNumber false value) ⟨rest, after⟩ := by
  obtain ⟨after, hmagnitude⟩ := readMagnitude_toDigits false h hrest offset
  refine ⟨after, ?_⟩
  rw [readNumber]
  split
  · rename_i tail hsign
    obtain ⟨head, digits, hdigits⟩ := List.exists_cons_of_ne_nil (Nat.toDigits_ne_nil (b := 10))
    rw [hdigits] at hsign
    cases hsign
    have hdigit : '-'.isDigit = true := isDigit_of_head_toDigits hdigits
    cases hdigit
  · exact hmagnitude

theorem toList_integerText (value : Int) :
    (integerText value).toList =
      (if value < 0 then ['-'] else []) ++ Nat.toDigits 10 value.natAbs := by
  rw [integerText, String.toList_append, Nat.toList_repr]
  split <;> rfl

/-- The text is a whole number in plain notation: its digits, behind a sign if it is negative, and neither
a point nor an exponent. -/
def PlainDecimal (value : Int) (text : List Char) : Prop :=
  ∃ digits, text = (if value < 0 then ['-'] else []) ++ digits ∧ digits ≠ [] ∧
    (∀ digit ∈ digits, digit.isDigit = true) ∧ Nat.ofDigitChars 10 digits 0 = value.natAbs

theorem plainDecimal_integerText (value : Int) : PlainDecimal value (integerText value).toList :=
  ⟨Nat.toDigits 10 value.natAbs, toList_integerText value, Nat.toDigits_ne_nil,
    fun _ hdigit => isDigit_of_mem_toDigits hdigit, Nat.ofDigitChars_ten_toDigits⟩

/-- A whole number is read back, whatever its sign. -/
theorem readNumber_integerText {value : Int}
    (bounded : -0x8000000000000000 ≤ value ∧ value < 0x10000000000000000) {rest : List Char}
    (hrest : Closing rest) (offset : Nat) :
    ∃ after, readNumber ⟨(integerText value).toList ++ rest, offset⟩ =
      .ok (.integer value bounded, ⟨rest, after⟩) := by
  have hfits : value.natAbs < 0x10000000000000000 := by omega
  rw [toList_integerText]
  by_cases hnegative : value < 0
  · obtain ⟨after, hmagnitude⟩ := readMagnitude_toDigits true hfits hrest (offset + 1)
    refine ⟨after, ?_⟩
    have hvalue : -(value.natAbs : Int) = value := by omega
    rw [if_pos hnegative]
    refine hmagnitude.trans ?_
    simp only [wholeNumber, if_true, hvalue]
    rw [dif_pos ⟨fun _ => Int.ne_of_lt hnegative, bounded⟩]
    rfl
  · obtain ⟨after, hnumber⟩ := readNumber_toDigits hfits hrest offset
    refine ⟨after, ?_⟩
    have hvalue : (value.natAbs : Int) = value := by omega
    rw [if_neg hnegative]
    refine hnumber.trans ?_
    simp only [wholeNumber, Bool.false_eq_true, if_false, hvalue]
    rw [dif_pos ⟨fun hsign => hsign.elim, bounded⟩]
    rfl

end WebToken.Json
