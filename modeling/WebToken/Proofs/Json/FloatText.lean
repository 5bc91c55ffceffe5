import WebToken.Proofs.Json.Numeral
import WebToken.Proofs.Json.Scaling
import WebToken.Proofs.Shortest

/-! The text of every finite number is a numeral that has a value. Shortest decimals have so few digits
that all of them are gathered, in either notation; what is then scaled is the decimal, but for one that is
written as a whole number: it takes a zero behind the point along. -/

namespace WebToken.Json

/-! ### Reading -/

section

variable (negative : Bool) (significand : Nat) (shift : ℤ) {rest : List Char}

/-- Digits of a small number spell it as an exponent. -/
theorem power_go (down : Bool) (digits : List Char) (value read : Nat)
    (h : Nat.ofDigitChars 10 digits value < 0x80000000) :
    Power.ofDigits.go down value read (digits.map fun char => char.toNat - 48) =
      .exact (if down then -(Nat.ofDigitChars 10 digits value : ℤ)
        else Nat.ofDigitChars 10 digits value) := by
  induction digits generalizing value read with
  | nil => rfl
  | cons char digits ih =>
      rw [Nat.ofDigitChars_cons, Nat.mul_comm] at h ⊢
      have hfits : value * 10 + (char.toNat - 48) < 0x80000000 :=
        Nat.lt_of_le_of_lt (le_ofDigitChars digits _) h
      rw [List.map_cons, Power.ofDigits.go, if_pos hfits]
      exact ih _ _ h

theorem power_toDigits (down : Bool) {value : Nat} (h : value < 0x80000000) :
    Power.ofDigits down ((Nat.toDigits 10 value).map fun char => char.toNat - 48) =
      .exact (if down then -(value : ℤ) else value) := by
  have hvalue : Nat.ofDigitChars 10 (Nat.toDigits 10 value) 0 = value :=
    Nat.ofDigitChars_ten_toDigits
  rw [Power.ofDigits, power_go _ _ _ _ (hvalue.symm ▸ h), hvalue]

/-- Behind the sign of an exponent only its digits are read. -/
theorem readPower_sign (down : Bool) {value : Nat} (h : value < 0x80000000) (hrest : Closing rest)
    (offset : Nat) :
    ∃ after, readPower negative significand shift
        ⟨(if down then '-' else '+') :: (Nat.toDigits 10 value ++ rest), offset⟩ =
      finishNumber (scaledNumber negative significand (shift + if down then -(value : ℤ) else value))
        ⟨rest, after⟩ := by
  have hdigits : Cursor.digits ⟨Nat.toDigits 10 value ++ rest, offset + 1⟩ =
      ((Nat.toDigits 10 value).map fun char => char.toNat - 48,
        ⟨rest, offset + 1 + (Nat.toDigits 10 value).length⟩) :=
    digits_append (fun char hchar => isDigit_of_mem_toDigits hchar) hrest.not_digit _
  have hsome : ((Nat.toDigits 10 value).map fun char => char.toNat - 48).isEmpty = false := by
    rw [List.isEmpty_eq_false_iff, Ne, List.map_eq_nil_iff]
    exact Nat.toDigits_ne_nil
  refine ⟨offset + 1 + (Nat.toDigits 10 value).length, ?_⟩
  cases down with
  | false =>
      rw [readPower]
      simp only [Bool.false_eq_true, if_false, Cursor.advance, List.drop_succ_cons, List.drop_zero,
        hdigits, hsome, power_toDigits _ h]
  | true =>
      rw [readPower]
      simp only [if_true, Cursor.advance, List.drop_succ_cons, List.drop_zero, hdigits, hsome,
        Bool.false_eq_true, if_false, power_toDigits _ h]

/-- An exponent is read behind its letter and sign. -/
theorem readScaled_exponent {lead : ℤ} (hlead : lead.natAbs < 0x80000000) (hrest : Closing rest)
    (offset : Nat) :
    ∃ after, readScaled negative significand shift
        ⟨'e' :: (if lead < 0 then '-' else '+') :: (Nat.toDigits 10 lead.natAbs ++ rest), offset⟩ =
      finishNumber (scaledNumber negative significand (shift + lead)) ⟨rest, after⟩ := by
  obtain ⟨after, hpower⟩ := readPower_sign negative significand shift (decide (lead < 0)) hlead hrest
    (offset + 1)
  have hvalue : (if lead < 0 then -(lead.natAbs : ℤ) else lead.natAbs) = lead := by
    split <;> omega
  simp only [decide_eq_true_eq, hvalue] at hpower
  exact ⟨after, hpower⟩

/-- Without an exponent the numeral ends. -/
theorem readScaled_closing (hrest : Closing rest) (offset : Nat) :
    readScaled negative significand shift ⟨rest, offset⟩ =
      finishNumber (scaledNumber negative significand shift) ⟨rest, offset⟩ := by
  rw [readScaled]
  split
  · rename_i tail heq
    exact absurd (congrArg List.head? heq) (hrest.not_head (by decide))
  · rename_i tail heq
    exact absurd (congrArg List.head? heq) (hrest.not_head (by decide))
  · rfl

end

/-- A whole part and a fraction are read as one significand, shifted by the digits of the fraction. -/
theorem readMagnitude_point (negative : Bool) {whole fraction tail : List Char}
    (hwhole : WholePart whole) (hfraction : ∀ char ∈ fraction, char.isDigit = true)
    (hsome : fraction ≠ []) (htail : ∀ char ∈ tail.head?, char.isDigit = false)
    (hfits : Nat.ofDigitChars 10 (whole ++ fraction) 0 < 0x10000000000000000) (offset : Nat) :
    ∃ after, readMagnitude negative ⟨whole ++ '.' :: (fraction ++ tail), offset⟩ =
      readScaled negative (Nat.ofDigitChars 10 (whole ++ fraction) 0) (-(fraction.length : ℤ))
        ⟨tail, after⟩ := by
  have hempty : (fraction.map fun char => char.toNat - 48).isEmpty = false := by
    rw [List.isEmpty_eq_false_iff, Ne, List.map_eq_nil_iff]
    exact hsome
  rw [Nat.ofDigitChars_append] at hfits ⊢
  have hgathered := gathered_digits fraction ⟨Nat.ofDigitChars 10 whole 0, 0, 0⟩ hfits
  refine ⟨offset + whole.length + 1 + fraction.length, ?_⟩
  rw [readMagnitude_wholePart negative hwhole (not_digit_cons rfl _)]
  change readFraction negative _ ⟨fraction ++ tail, offset + whole.length + 1⟩ = _
  rw [readFraction, digits_append hfraction htail]
  simp only [hempty, Bool.false_eq_true, if_false, hgathered]
  congr 1
  omega

/-- A whole part may have an exponent right behind it. -/
theorem readMagnitude_exponent (negative : Bool) {whole : List Char} (hwhole : WholePart whole)
    (tail : List Char) (offset : Nat) :
    readMagnitude negative ⟨whole ++ 'e' :: tail, offset⟩ =
      readScaled negative (Nat.ofDigitChars 10 whole 0) 0 ⟨'e' :: tail, offset + whole.length⟩ := by
  rw [readMagnitude_wholePart negative hwhole (not_digit_cons rfl _)]
  exact if_neg fun h => h.1 rfl

/-! ### Positional notation -/

theorem ofDigitChars_lt {digits : List Char} (h : ∀ char ∈ digits, char.isDigit = true)
    (value : Nat) : Nat.ofDigitChars 10 digits value < (value + 1) * 10 ^ digits.length := by
  induction digits generalizing value with
  | nil => simp
  | cons char digits ih =>
      obtain ⟨hchar, hdigits⟩ := List.forall_mem_cons.mp h
      have hbounds : 48 ≤ char.toNat ∧ char.toNat ≤ 57 := Char.isDigit_iff_toNat.mp hchar
      rw [Nat.ofDigitChars_cons]
      calc Nat.ofDigitChars 10 digits (10 * value + (char.toNat - 48))
          < (10 * value + (char.toNat - 48) + 1) * 10 ^ digits.length := ih hdigits _
        _ ≤ ((value + 1) * 10) * 10 ^ digits.length := Nat.mul_le_mul_right _ (by omega)
        _ = (value + 1) * 10 ^ (char :: digits).length := by
            rw [List.length_cons, pow_succ']
            ring

/-- Sixteen digits always fit. -/
theorem wholePart_of_length {digits : List Char} (hdigits : ∀ char ∈ digits, char.isDigit = true)
    (hsome : digits ≠ []) (hleading : digits.head? = some '0' → digits.length = 1)
    (hlength : digits.length ≤ 16) : WholePart digits := by
  refine ⟨hdigits, hsome, hleading, ?_⟩
  calc Nat.ofDigitChars 10 digits 0
      < (0 + 1) * 10 ^ digits.length := ofDigitChars_lt hdigits 0
    _ ≤ (0 + 1) * 10 ^ 16 := Nat.mul_le_mul_left _ (Nat.pow_le_pow_right (by decide) hlength)
    _ ≤ 0x10000000000000000 := by decide

theorem isDigit_of_mem_zeros {count : Nat} {char : Char} (h : char ∈ List.replicate count '0') :
    char.isDigit = true := by
  rw [List.eq_of_mem_replicate h]
  rfl

/-- The place of the first digit of a decimal: that of the last one, and the others in front of it. -/
def lead (decimal : Decimal) : ℤ :=
  decimal.exponent + (Nat.toDigits 10 decimal.digits).length - 1

/-- The significand and the power of ten that the text of a decimal spells. Whole numbers that are
written without an exponent get a zero behind the point. -/
def spelled (decimal : Decimal) : Nat × ℤ :=
  if 0 ≤ decimal.exponent ∧ lead decimal < 16 then
    (decimal.digits * 10 ^ (decimal.exponent.toNat + 1), -1)
  else (decimal.digits, decimal.exponent)

/-- A decimal of as few digits as a shortest one has, or zero, which is spelled in one way only. -/
structure Proper (decimal : Decimal) : Prop where
  zero : decimal.digits = 0 → decimal.exponent = 0
  digits : decimal.digits < 2 ^ 58
  exponent : -343 ≤ decimal.exponent ∧ decimal.exponent ≤ 308

theorem length_le_of_lt {value width : Nat} (hwidth : 0 < width) (h : value < 10 ^ width) :
    (Nat.toDigits 10 value).length ≤ width :=
  (Nat.length_toDigits_le_iff (by decide) hwidth).mpr h

theorem lt_pow_length (value : Nat) : value < 10 ^ (Nat.toDigits 10 value).length :=
  (Nat.length_toDigits_le_iff (by decide) Nat.length_toDigits_pos).mp (Nat.le_refl _)

theorem pow_length_le {value : Nat} (h : 0 < value) :
    10 ^ ((Nat.toDigits 10 value).length - 1) ≤ value := by
  rcases Nat.eq_zero_or_pos ((Nat.toDigits 10 value).length - 1) with hone | hmore
  · rw [hone]
    exact h
  · rw [← Nat.not_lt, ← Nat.length_toDigits_le_iff (by decide) hmore]
    omega

/-- The place of the first digit tells how large a decimal is. -/
theorem lead_lt_iff {decimal : Decimal} (h : 0 < decimal.digits) (limit : ℤ) :
    lead decimal < limit ↔ decimal.value < 10 ^ limit := by
  have hwidth : 0 < (Nat.toDigits 10 decimal.digits).length := Nat.length_toDigits_pos
  have hstep : (0 : ℚ) < 10 ^ decimal.exponent := by positivity
  constructor
  · intro hlead
    have hdigits : (decimal.digits : ℚ) < 10 ^ ((Nat.toDigits 10 decimal.digits).length : ℤ) := by
      rw [zpow_natCast]
      exact_mod_cast lt_pow_length decimal.digits
    calc decimal.value
        < 10 ^ ((Nat.toDigits 10 decimal.digits).length : ℤ) * 10 ^ decimal.exponent :=
          mul_lt_mul_of_pos_right hdigits hstep
      _ = 10 ^ (lead decimal + 1) := by
          rw [← zpow_add₀ (by norm_num), lead]
          congr 1
          omega
      _ ≤ 10 ^ limit := zpow_le_zpow_right₀ (by norm_num) hlead
  · intro hvalue
    have hdigits : (10 : ℚ) ^ (((Nat.toDigits 10 decimal.digits).length - 1 : Nat) : ℤ) ≤
        decimal.digits := by
      rw [zpow_natCast]
      exact_mod_cast pow_length_le h
    have hpower : (10 : ℚ) ^ lead decimal < 10 ^ limit := by
      calc (10 : ℚ) ^ lead decimal
          = 10 ^ (((Nat.toDigits 10 decimal.digits).length - 1 : Nat) : ℤ) *
              10 ^ decimal.exponent := by
            rw [← zpow_add₀ (by norm_num), lead]
            congr 1
            omega
        _ ≤ decimal.value := mul_le_mul_of_nonneg_right hdigits hstep.le
        _ < 10 ^ limit := hvalue
    exact (zpow_lt_zpow_iff_right₀ (by norm_num)).mp hpower

theorem Proper.lead_bounds {decimal : Decimal} (h : Proper decimal) :
    (lead decimal).natAbs < 0x80000000 := by
  have hlength : (Nat.toDigits 10 decimal.digits).length ≤ 18 :=
    length_le_of_lt (by decide) (h.digits.trans (by decide))
  have hexponent := h.exponent
  rw [lead]
  omega

/-- What is spelled stands for the decimal. -/
theorem value_spelled (decimal : Decimal) :
    ((spelled decimal).1 : ℚ) * 10 ^ (spelled decimal).2 = decimal.value := by
  rw [spelled, Decimal.value]
  split
  · rename_i hwhole
    obtain ⟨places, hplaces⟩ := Int.eq_ofNat_of_zero_le hwhole.1
    rw [hplaces, Int.toNat_natCast, zpow_natCast, zpow_neg_one]
    push_cast
    rw [pow_succ]
    ring
  · rfl

theorem Proper.spelled_lt {decimal : Decimal} (h : Proper decimal) :
    (spelled decimal).1 < 0x10000000000000000 := by
  rw [spelled]
  split
  · rename_i hwhole
    rw [lead] at hwhole
    have hwidth : (Nat.toDigits 10 decimal.digits).length + decimal.exponent.toNat ≤ 16 := by omega
    calc decimal.digits * 10 ^ (decimal.exponent.toNat + 1)
        < 10 ^ (Nat.toDigits 10 decimal.digits).length * 10 ^ (decimal.exponent.toNat + 1) :=
          Nat.mul_lt_mul_of_pos_right (lt_pow_length _) (Nat.pow_pos (by decide))
      _ = 10 ^ ((Nat.toDigits 10 decimal.digits).length + decimal.exponent.toNat + 1) := by
          rw [← pow_add, Nat.add_assoc]
      _ ≤ 10 ^ 17 := Nat.pow_le_pow_right (by decide) (by omega)
      _ < 0x10000000000000000 := by decide
  · exact h.digits.trans (by decide)

theorem eq_zero_of_head? {value : Nat} (h : (Nat.toDigits 10 value).head? = some '0') : value = 0 :=
  Nat.eq_zero_of_not_pos fun hpos => head?_toDigits hpos h

/-- A decimal that is a whole number is written with zeros in the places after its digits. -/
theorem wholePart_zeros {decimal : Decimal} (hproper : Proper decimal)
    (hexponent : 0 ≤ decimal.exponent) (hlead : lead decimal < 16) :
    WholePart (Nat.toDigits 10 decimal.digits ++
      List.replicate decimal.exponent.toNat '0') := by
  apply wholePart_of_length
  · intro char hchar
    rcases List.mem_append.mp hchar with hchar | hchar
    · exact isDigit_of_mem_toDigits hchar
    · exact isDigit_of_mem_zeros hchar
  · exact List.append_ne_nil_of_left_ne_nil Nat.toDigits_ne_nil _
  · intro hhead
    rw [List.head?_append_of_ne_nil _ Nat.toDigits_ne_nil] at hhead
    have hzero := eq_zero_of_head? hhead
    rw [hzero, hproper.zero hzero]
    rfl
  · rw [lead] at hlead
    rw [List.length_append, List.length_replicate]
    omega

/-- A decimal with a point within its digits has a whole part in front of it. -/
theorem wholePart_take {decimal : Decimal} (hproper : Proper decimal)
    (hexponent : decimal.exponent < 0) (hlead : 0 ≤ lead decimal ∧ lead decimal < 16) :
    WholePart ((Nat.toDigits 10 decimal.digits).take (lead decimal + 1).toNat) := by
  apply wholePart_of_length
  · exact fun char hchar => isDigit_of_mem_toDigits (List.mem_of_mem_take hchar)
  · rw [Ne, List.take_eq_nil_iff, not_or]
    exact ⟨by omega, Nat.toDigits_ne_nil⟩
  · intro hhead
    rw [List.head?_take, if_neg (by omega)] at hhead
    have hzero := hproper.zero (eq_zero_of_head? hhead)
    omega
  · rw [List.length_take]
    omega

/-- The text of a decimal, by the place of its first digit. -/
theorem write_eq (decimal : Decimal) :
    numberLayout.write decimal =
      if -5 ≤ lead decimal ∧ lead decimal < 16 then
        if 0 ≤ decimal.exponent then
          decimal.digits.repr ++ String.ofList (List.replicate decimal.exponent.toNat '0') ++ ".0"
        else if 0 ≤ lead decimal then
          String.ofList (decimal.digits.repr.toList.take (lead decimal + 1).toNat) ++ "." ++
            String.ofList (decimal.digits.repr.toList.drop (lead decimal + 1).toNat)
        else
          "0." ++ String.ofList (List.replicate (-lead decimal - 1).toNat '0') ++ decimal.digits.repr
      else
        String.ofList (decimal.digits.repr.toList.take 1) ++
          (if (decimal.digits.repr.toList.drop 1).isEmpty then ""
            else "." ++ String.ofList (decimal.digits.repr.toList.drop 1)) ++
          "e" ++ (if lead decimal < 0 then "-" else "+") ++ (lead decimal).natAbs.repr := by
  have hlength : decimal.digits.repr.length = (Nat.toDigits 10 decimal.digits).length := by
    rw [← String.length_toList, Nat.toList_repr]
  simp only [NumberLayout.write, numberLayout, hlength]
  rfl

theorem isDigit_of_mem_zero {char : Char} (h : char ∈ ['0']) : char.isDigit = true := by
  rw [List.mem_singleton.mp h]
  rfl

theorem ofDigitChars_zeros (count value : Nat) :
    Nat.ofDigitChars 10 (List.replicate count '0') value = value * 10 ^ count := by
  induction count generalizing value with
  | zero => simp
  | succ count ih =>
      rw [List.replicate_succ, Nat.ofDigitChars_cons, ih, pow_succ']
      change (10 * value + 0) * 10 ^ count = _
      ring

/-- In positional notation a decimal is a whole part and a fraction. -/
theorem write_positional {decimal : Decimal} (hproper : Proper decimal)
    (hlead : -5 ≤ lead decimal ∧ lead decimal < 16) :
    ∃ whole fraction, (numberLayout.write decimal).toList = whole ++ '.' :: fraction ∧
      WholePart whole ∧ (∀ char ∈ fraction, char.isDigit = true) ∧ fraction ≠ [] ∧
      spelled decimal =
        (Nat.ofDigitChars 10 (whole ++ fraction) 0, -(fraction.length : ℤ)) := by
  have hdigits : ∀ char ∈ Nat.toDigits 10 decimal.digits, char.isDigit = true :=
    fun _ hchar => isDigit_of_mem_toDigits hchar
  rw [write_eq, if_pos hlead, spelled]
  by_cases hexponent : 0 ≤ decimal.exponent
  · rw [if_pos hexponent, if_pos ⟨hexponent, hlead.2⟩]
    refine ⟨_, ['0'], ?_, wholePart_zeros hproper hexponent hlead.2,
      fun _ => isDigit_of_mem_zero, List.cons_ne_nil _ _, ?_⟩
    · simp only [String.toList_append, Nat.toList_repr, String.toList_ofList]
      rfl
    · rw [Nat.ofDigitChars_append, Nat.ofDigitChars_append, Nat.ofDigitChars_ten_toDigits,
        ofDigitChars_zeros, pow_succ, ← Nat.mul_assoc, Nat.mul_comm _ 10]
      rfl
  · have hspelled : ¬(0 ≤ decimal.exponent ∧ lead decimal < 16) := fun h => hexponent h.1
    rw [if_neg hexponent, if_neg hspelled]
    by_cases hwhole : 0 ≤ lead decimal
    · rw [if_pos hwhole]
      refine ⟨_, (Nat.toDigits 10 decimal.digits).drop (lead decimal + 1).toNat, ?_,
        wholePart_take hproper (Int.not_le.mp hexponent) ⟨hwhole, hlead.2⟩,
        fun char hchar => hdigits char (List.mem_of_mem_drop hchar), ?_, ?_⟩
      · simp only [String.toList_append, Nat.toList_repr, String.toList_ofList]
        rw [List.append_assoc]
        rfl
      · rw [lead] at hwhole ⊢
        rw [Ne, List.drop_eq_nil_iff]
        omega
      · rw [List.take_append_drop, Nat.ofDigitChars_ten_toDigits, List.length_drop, lead]
        rw [lead] at hwhole
        congr 1
        omega
    · rw [if_neg hwhole]
      refine ⟨['0'], List.replicate (-lead decimal - 1).toNat '0' ++
        Nat.toDigits 10 decimal.digits, ?_, ?_, ?_, ?_, ?_⟩
      · simp only [String.toList_append, Nat.toList_repr, String.toList_ofList]
        rfl
      · exact wholePart_of_length (fun _ => isDigit_of_mem_zero) (List.cons_ne_nil _ _)
          (fun _ => rfl) (by decide)
      · intro char hchar
        rcases List.mem_append.mp hchar with hchar | hchar
        · exact isDigit_of_mem_zeros hchar
        · exact hdigits char hchar
      · exact List.append_ne_nil_of_right_ne_nil _ Nat.toDigits_ne_nil
      · have hnone : Nat.ofDigitChars 10 ['0'] 0 = 0 := rfl
        rw [Nat.ofDigitChars_append, hnone, Nat.ofDigitChars_append, ofDigitChars_zeros, Nat.zero_mul,
          Nat.ofDigitChars_ten_toDigits, List.length_append, List.length_replicate, lead]
        rw [lead] at hwhole
        congr 1
        omega

/-- In positional notation a decimal is read as it is spelled. -/
theorem readMagnitude_positional (negative : Bool) {decimal : Decimal} (hproper : Proper decimal)
    (hlead : -5 ≤ lead decimal ∧ lead decimal < 16) {rest : List Char} (hrest : Closing rest)
    (offset : Nat) :
    ∃ after, readMagnitude negative ⟨(numberLayout.write decimal).toList ++ rest, offset⟩ =
      finishNumber (scaledNumber negative (spelled decimal).1 (spelled decimal).2)
        ⟨rest, after⟩ := by
  obtain ⟨whole, fraction, htext, hwhole, hfraction, hsome, hspelled⟩ := write_positional hproper hlead
  have hfits := hproper.spelled_lt
  rw [hspelled] at hfits ⊢
  obtain ⟨after, hread⟩ :=
    readMagnitude_point negative hwhole hfraction hsome hrest.not_digit hfits offset
  refine ⟨after, ?_⟩
  rw [htext, List.append_assoc, List.cons_append, hread, readScaled_closing _ _ _ hrest]

/-! ### Scientific notation -/

theorem write_scientific {decimal : Decimal} (hlead : ¬(-5 ≤ lead decimal ∧ lead decimal < 16))
    {head : Char} {others : List Char} (hdigits : Nat.toDigits 10 decimal.digits = head :: others) :
    (numberLayout.write decimal).toList =
      [head] ++ ((if others.isEmpty then [] else '.' :: others) ++
        'e' :: (if lead decimal < 0 then '-' else '+') :: Nat.toDigits 10 (lead decimal).natAbs) := by
  have hsign : (if lead decimal < 0 then "-" else "+").toList =
      [if lead decimal < 0 then '-' else '+'] := by
    split <;> rfl
  rw [write_eq, if_neg hlead]
  simp only [String.toList_append, Nat.toList_repr, String.toList_ofList, hdigits, hsign]
  cases others with
  | nil => rfl
  | cons next others => simp

/-- In scientific notation a decimal is read as its digits, scaled to the place of the last. -/
theorem readMagnitude_scientific (negative : Bool) {decimal : Decimal} (hproper : Proper decimal)
    (hlead : ¬(-5 ≤ lead decimal ∧ lead decimal < 16)) {rest : List Char} (hrest : Closing rest)
    (offset : Nat) :
    ∃ after, readMagnitude negative ⟨(numberLayout.write decimal).toList ++ rest, offset⟩ =
      finishNumber (scaledNumber negative decimal.digits decimal.exponent) ⟨rest, after⟩ := by
  obtain ⟨head, others, hdigits⟩ :=
    List.exists_cons_of_ne_nil (Nat.toDigits_ne_nil (b := 10) (n := decimal.digits))
  have hvalue : Nat.ofDigitChars 10 ([head] ++ others) 0 = decimal.digits := by
    rw [List.singleton_append, ← hdigits, Nat.ofDigitChars_ten_toDigits]
  have hplace : -(others.length : ℤ) + lead decimal = decimal.exponent := by
    rw [lead, hdigits, List.length_cons]
    omega
  have hall : ∀ char ∈ head :: others, char.isDigit = true := by
    rw [← hdigits]
    exact fun _ hchar => isDigit_of_mem_toDigits hchar
  obtain ⟨hhead, hothers⟩ := List.forall_mem_cons.mp hall
  have hwhole : WholePart [head] := wholePart_of_length
    (fun char hchar => List.mem_singleton.mp hchar ▸ hhead) (List.cons_ne_nil _ _) (fun _ => rfl)
    (by simp)
  rw [write_scientific hlead hdigits]
  cases others with
  | nil =>
      obtain ⟨after, hread⟩ := readScaled_exponent negative decimal.digits 0 hproper.lead_bounds hrest
        (offset + 1)
      rw [List.length_nil, Nat.cast_zero, neg_zero] at hplace
      rw [hplace, ← hvalue] at hread
      refine ⟨after, ?_⟩
      rw [← hvalue, ← hread]
      exact readMagnitude_exponent negative hwhole _ offset
  | cons next others =>
      have hfits : Nat.ofDigitChars 10 ([head] ++ next :: others) 0 < 0x10000000000000000 := by
        rw [hvalue]
        exact hproper.digits.trans (by decide)
      obtain ⟨middle, hread⟩ :=
        readMagnitude_point negative hwhole hothers (List.cons_ne_nil _ _)
          (not_digit_cons (show 'e'.isDigit = false from rfl)
            ((if lead decimal < 0 then '-' else '+') ::
              (Nat.toDigits 10 (lead decimal).natAbs ++ rest))) hfits offset
      rw [hvalue] at hread
      obtain ⟨after, hscaled⟩ := readScaled_exponent negative decimal.digits
        (-((next :: others).length : ℤ)) hproper.lead_bounds hrest middle
      rw [hplace] at hscaled
      refine ⟨after, ?_⟩
      rw [← hscaled, ← hread, List.append_assoc, List.append_assoc]
      rfl

/-- In either notation a decimal is read as it is spelled. -/
theorem readMagnitude_write (negative : Bool) {decimal : Decimal} (hproper : Proper decimal)
    {rest : List Char} (hrest : Closing rest) (offset : Nat) :
    ∃ after, readMagnitude negative ⟨(numberLayout.write decimal).toList ++ rest, offset⟩ =
      finishNumber (scaledNumber negative (spelled decimal).1 (spelled decimal).2)
        ⟨rest, after⟩ := by
  by_cases hlead : -5 ≤ lead decimal ∧ lead decimal < 16
  · exact readMagnitude_positional negative hproper hlead hrest offset
  · have hspelled : spelled decimal = (decimal.digits, decimal.exponent) := by
      have hwidth : 0 < (Nat.toDigits 10 decimal.digits).length := Nat.length_toDigits_pos
      rw [lead] at hlead
      rw [spelled, lead]
      exact if_neg (by omega)
    rw [hspelled]
    exact readMagnitude_scientific negative hproper hlead hrest offset

/-! ### Binary numbers -/

/-- The decimal that is written for a binary number without its sign. -/
def decimalOf (value : Binary64) : Decimal :=
  if value.isZero then ⟨0, 0⟩ else .shortest value.significand value.exponent

theorem floatText_eq (value : Binary64) :
    floatText value =
      (if value.isNegative then "-" else "") ++ numberLayout.write (decimalOf value) := by
  have hzero : numberLayout.write ⟨0, 0⟩ = "0.0" := by decide +kernel
  rw [floatText, decimalOf]
  split
  · rw [hzero]
  · rfl

theorem proper_zero : Proper ⟨0, 0⟩ :=
  ⟨fun _ => rfl, by decide, by decide⟩

theorem coarsest_decimalOf {value : Binary64} (finite : value.isFinite = true)
    (hzero : value.isZero = false) :
    Decimal.Coarsest value.significand value.exponent (decimalOf value) := by
  have hexponent := (Binary64.significand_bounds finite).2.2
  rw [decimalOf, if_neg (by simp [hzero])]
  exact Decimal.coarsest_shortest (Binary64.significand_pos hzero) (by omega)

theorem proper_decimalOf {value : Binary64} (finite : value.isFinite = true) :
    Proper (decimalOf value) := by
  cases hzero : value.isZero with
  | true =>
      rw [decimalOf, if_pos hzero]
      exact proper_zero
  | false =>
      have hcoarsest := coarsest_decimalOf finite hzero
      have hpos := Binary64.significand_pos hzero
      obtain ⟨hsignificand, hexponent, _⟩ := Binary64.significand_bounds finite
      refine ⟨fun hnone => ?_, hcoarsest.digits_lt hpos hsignificand hexponent, hcoarsest.power⟩
      exact absurd hnone (hcoarsest.digits_pos hpos).ne'

/-- Half a unit above a finite number, unless that is one of the two largest. -/
theorem half_up_le_scaleLimit {significand : Nat} {exponent : ℤ} (hsignificand : significand < 2 ^ 53)
    (hexponent : exponent ≤ 971) (h : ¬(exponent = 971 ∧ 2 ^ 53 - 2 ≤ significand)) :
    ((significand : ℚ) + 1 / 2) * 2 ^ exponent ≤ scaleLimit := by
  have hunit : (0 : ℚ) < 2 ^ (970 : ℤ) := by positivity
  have hlimit : scaleLimit = (2 ^ 54 - 5) * 2 ^ (970 : ℤ) := by
    rw [scaleLimit, zpow_ofNat]
  rw [hlimit]
  by_cases hplace : exponent = 970 + 1
  · have hnat : significand + 3 ≤ 2 ^ 53 := by omega
    have hbound : (significand : ℚ) + 3 ≤ 2 ^ 53 := by exact_mod_cast hnat
    rw [hplace, zpow_add_one₀ two_ne_zero, mul_comm (2 ^ (970 : ℤ)), ← mul_assoc]
    exact mul_le_mul_of_nonneg_right (by linarith only [hbound]) hunit.le
  · have hbound : (significand : ℚ) ≤ 2 ^ 53 := by exact_mod_cast hsignificand.le
    have hnonneg : (0 : ℚ) ≤ (significand : ℚ) + 1 / 2 :=
      add_nonneg (Nat.cast_nonneg _) one_half_pos.le
    have hpower : (2 : ℚ) ^ exponent ≤ 2 ^ (970 : ℤ) :=
      zpow_le_zpow_right₀ one_le_two (by omega)
    refine (mul_le_mul_of_nonneg_left hpower hnonneg).trans ?_
    exact mul_le_mul_of_nonneg_right (by linarith only [hbound]) hunit.le

/-- The decimal of a finite number is small enough to be scaled up to, or one of two. -/
theorem decimalOf_cases {value : Binary64} (finite : value.isFinite = true) :
    (decimalOf value).value ≤ scaleLimit ∨
      decimalOf value = ⟨17976931348623155, 292⟩ ∨ decimalOf value = ⟨17976931348623157, 292⟩ := by
  cases hzero : value.isZero with
  | true =>
      left
      rw [decimalOf, if_pos hzero, Decimal.value, Nat.cast_zero, zero_mul, scaleLimit]
      norm_num
  | false =>
      obtain ⟨hsignificand, hexponent, _⟩ := Binary64.significand_bounds finite
      -- Half a unit above the two largest numbers is beyond the limit; their decimals are computed.
      by_cases hlargest : value.exponent = 971 ∧ 2 ^ 53 - 2 ≤ value.significand
      · right
        obtain ⟨hplace, hlarge⟩ := hlargest
        rw [decimalOf, if_neg (by simp [hzero]), hplace]
        obtain hbefore | hlast : value.significand = 2 ^ 53 - 2 ∨ value.significand = 2 ^ 53 - 1 := by
          omega
        · rw [hbefore]
          exact Or.inl (by decide +kernel)
        · rw [hlast]
          exact Or.inr (by decide +kernel)
      · left
        exact (coarsest_decimalOf finite hzero).value_le.trans
          (half_up_le_scaleLimit hsignificand hexponent hlargest)

/-- What the text of a number is read as: the decimal that it spells, scaled. -/
def readBack? (value : Binary64) : Option JsonNumber :=
  scaledNumber value.isNegative (spelled (decimalOf value)).1 (spelled (decimalOf value)).2

/-- The text of every finite number has a value. -/
theorem exists_readBack {value : Binary64} (finite : value.isFinite = true) :
    ∃ number, readBack? value = some number := by
  rw [readBack?]
  rcases decimalOf_cases finite with hvalue | hlargest
  · apply exists_scaledNumber _ (proper_decimalOf finite).spelled_lt
    rw [value_spelled]
    exact Or.inr hvalue
  · apply Option.isSome_iff_exists.mp
    rcases hlargest with hdecimal | hdecimal <;> rw [hdecimal] <;> cases value.isNegative <;>
      decide +kernel

/-- The text of every finite number is read as the number that its decimal is scaled to. -/
theorem readNumber_floatText {value : Binary64} (finite : value.isFinite = true) {rest : List Char}
    (hrest : Closing rest) (offset : Nat) :
    ∃ number after, readBack? value = some number ∧
      readNumber ⟨(floatText value).toList ++ rest, offset⟩ = .ok (number, ⟨rest, after⟩) := by
  obtain ⟨number, hnumber⟩ := exists_readBack finite
  have hmagnitude : ∀ offset, ∃ after, readMagnitude value.isNegative
      ⟨(numberLayout.write (decimalOf value)).toList ++ rest, offset⟩ =
        .ok (number, ⟨rest, after⟩) := by
    intro offset
    obtain ⟨after, hread⟩ :=
      readMagnitude_write value.isNegative (proper_decimalOf finite) hrest offset
    refine ⟨after, hread.trans ?_⟩
    rw [← readBack?, hnumber]
    rfl
  rw [floatText_eq]
  cases hsign : value.isNegative with
  | true =>
      obtain ⟨after, hread⟩ := hmagnitude (offset + 1)
      refine ⟨number, after, hnumber, ?_⟩
      rw [if_pos rfl, String.toList_append, List.append_assoc]
      rw [hsign] at hread
      exact hread
  | false =>
      obtain ⟨after, hread⟩ := hmagnitude offset
      refine ⟨number, after, hnumber, ?_⟩
      rw [if_neg (by decide), String.empty_append]
      rw [hsign] at hread
      exact readNumber_of_readMagnitude hread

end WebToken.Json
