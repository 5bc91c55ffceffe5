import WebToken.Proofs.Action
import WebToken.Json.Quoted

/-! A string in quotes reads back as it was written, whatever its characters. -/

namespace WebToken.Json

/-- The characters of a string in quotes. -/
def quoted (value : String) : List Char :=
  '"' :: (value.toList.flatMap escape ++ ['"'])

theorem toList_foldl_push (chars : List Char) (out : String) :
    (chars.foldl String.push out).toList = out.toList ++ chars := by
  induction chars generalizing out with
  | nil => exact (List.append_nil _).symm
  | cons char chars ih =>
      rw [List.foldl_cons, ih, String.toList_push, List.append_assoc, List.singleton_append]

theorem toList_foldl_escape (chars : List Char) (out : String) :
    (chars.foldl (fun text char => (escape char).foldl String.push text) out).toList =
      out.toList ++ chars.flatMap escape := by
  induction chars generalizing out with
  | nil => exact (List.append_nil _).symm
  | cons char chars ih =>
      rw [List.foldl_cons, ih, toList_foldl_push, List.append_assoc, List.flatMap_cons]

theorem toList_emitString (out value : String) :
    (emitString out value).toList = out.toList ++ quoted value := by
  rw [emitString, String.toList_push, toList_foldl_escape, String.toList_push, quoted,
    List.append_assoc, List.append_assoc, List.singleton_append]

theorem length_escape_pos (char : Char) : 0 < (escape char).length := by
  rw [escape]
  split
  · exact Nat.zero_lt_succ _
  all_goals
    repeat' split
    all_goals exact Nat.zero_lt_succ _

theorem length_lt_length_quoted (value : String) : value.toList.length < (quoted value).length := by
  rw [quoted, List.length_cons, List.length_append]
  have hescaped : ∀ chars : List Char, chars.length ≤ (chars.flatMap escape).length := by
    intro chars
    induction chars with
    | nil => exact Nat.le_refl _
    | cons char chars ih =>
        have hchar := length_escape_pos char
        rw [List.flatMap_cons, List.length_append, List.length_cons]
        omega
  have hvalue := hescaped value.toList
  omega

/-! ### Reading back -/

theorem hexDigits_control : ∀ unit < 32,
    (String.ofList ['0', '0', hexDigit (unit / 16), hexDigit (unit % 16)]).utf8ByteSize = 4 ∧
      ['0', '0', hexDigit (unit / 16), hexDigit (unit % 16)].mapM hexValue? =
        some [0, 0, unit / 16, unit % 16] := by
  decide

theorem readHex_control {unit : Nat} (h : unit < 32) (rest : List Char) (offset : Nat) :
    readHex ⟨'0' :: '0' :: hexDigit (unit / 16) :: hexDigit (unit % 16) :: rest, offset⟩ =
      .ok unit := by
  obtain ⟨hsize, hdigits⟩ := hexDigits_control unit h
  have hahead : ('0' :: '0' :: hexDigit (unit / 16) :: hexDigit (unit % 16) :: rest).take 4 =
      ['0', '0', hexDigit (unit / 16), hexDigit (unit % 16)] := rfl
  rw [readHex]
  simp only [hahead, hsize, hdigits, Nat.lt_irrefl, if_false]
  congr 1
  simp only [List.foldl_cons, List.foldl_nil]
  omega

theorem readUnits_control {char : Char} (h : char.toNat < 32) (rest : List Char) (offset : Nat) :
    ∃ after, readUnits
        ⟨'0' :: '0' :: hexDigit (char.toNat / 16) :: hexDigit (char.toNat % 16) :: rest, offset⟩ =
      .ok (char, ⟨rest, after⟩) := by
  refine ⟨offset + 4, ?_⟩
  have hlow : isLowSurrogate char.toNat = false := by
    rw [isLowSurrogate, Bool.and_eq_false_iff]
    exact Or.inl (decide_eq_false (by omega))
  have hhigh : isHighSurrogate char.toNat = false := by
    rw [isHighSurrogate, Bool.and_eq_false_iff]
    exact Or.inl (decide_eq_false (by omega))
  rw [readUnits, readHex_control h]
  simp only [bind, Except.bind, hlow, hhigh, Bool.false_eq_true, if_false, Char.ofNat_toNat]
  rfl

theorem readString_plain {char : Char} (hquote : char ≠ '"') (hbackslash : char ≠ '\\')
    (hplain : 32 ≤ char.toNat) (rounds : Nat) (out : String) (rest : List Char) (offset : Nat) :
    readString (rounds + 1) out ⟨char :: rest, offset⟩ =
      readString rounds (out.push char) ⟨rest, offset + char.utf8Size⟩ := by
  rw [readString]
  split
  · rename_i heq
    cases heq
  · rename_i heq
    cases heq
    exact absurd rfl hquote
  · rename_i heq
    cases heq
    exact absurd rfl hbackslash
  · rename_i heq
    cases heq
    rw [if_neg (Nat.not_lt.mpr hplain)]

theorem readString_control {char : Char} (h : char.toNat < 32) (rounds : Nat) (out : String)
    (rest : List Char) (offset : Nat) :
    ∃ after, readString (rounds + 1) out
        ⟨'\\' :: 'u' :: '0' :: '0' :: hexDigit (char.toNat / 16) ::
          hexDigit (char.toNat % 16) :: rest, offset⟩ =
      readString rounds (out.push char) ⟨rest, after⟩ := by
  obtain ⟨after, hunits⟩ := readUnits_control h rest (offset + 2)
  refine ⟨after, ?_⟩
  have hescape : readEscape
      ⟨'u' :: '0' :: '0' :: hexDigit (char.toNat / 16) :: hexDigit (char.toNat % 16) :: rest,
        offset + 1⟩ = .ok (char, ⟨rest, after⟩) := hunits
  change readEscape _ >>= _ = _
  rw [hescape]
  rfl

/-- A round reads one character, escaped or not. -/
theorem readString_escape (char : Char) (rounds : Nat) (out : String) (rest : List Char)
    (offset : Nat) :
    ∃ after, readString (rounds + 1) out ⟨escape char ++ rest, offset⟩ =
      readString rounds (out.push char) ⟨rest, after⟩ := by
  have hchar : ∀ code, char.toNat = code → char = Char.ofNat code := by
    rintro code rfl
    exact (Char.ofNat_toNat char).symm
  rw [escape]
  split
  case isTrue hquote =>
    subst hquote
    exact ⟨_, rfl⟩
  case isFalse hquote =>
  split
  case isTrue hbackslash =>
    subst hbackslash
    exact ⟨_, rfl⟩
  case isFalse hbackslash =>
  split
  case isTrue hplain => exact ⟨_, readString_plain hquote hbackslash hplain rounds out rest offset⟩
  case isFalse hcontrol =>
  split
  case isTrue hbackspace =>
    cases hchar _ hbackspace
    exact ⟨_, rfl⟩
  split
  case isTrue hfeed =>
    cases hchar _ hfeed
    exact ⟨_, rfl⟩
  split
  case isTrue hline =>
    subst hline
    exact ⟨_, rfl⟩
  split
  case isTrue hreturn =>
    subst hreturn
    exact ⟨_, rfl⟩
  split
  case isTrue htab =>
    subst htab
    exact ⟨_, rfl⟩
  case isFalse =>
    exact readString_control (Nat.lt_of_not_le hcontrol) rounds out rest offset

theorem readString_flatMap_escape (chars : List Char) {rounds : Nat}
    (hrounds : chars.length < rounds) (out : String) (rest : List Char) (offset : Nat) :
    ∃ after, readString rounds out ⟨chars.flatMap escape ++ '"' :: rest, offset⟩ =
      .ok (String.ofList (out.toList ++ chars), ⟨rest, after⟩) := by
  induction chars generalizing rounds out offset with
  | nil =>
      obtain ⟨rounds, rfl⟩ := Nat.exists_eq_add_of_lt hrounds
      rw [List.append_nil, String.ofList_toList]
      exact ⟨_, rfl⟩
  | cons char chars ih =>
      cases rounds with
      | zero => cases hrounds
      | succ rounds =>
          obtain ⟨after, hchar⟩ := readString_escape char rounds out
            (chars.flatMap escape ++ '"' :: rest) offset
          obtain ⟨last, hchars⟩ := ih (Nat.lt_of_succ_lt_succ hrounds) (out.push char) after
          refine ⟨last, ?_⟩
          rw [List.flatMap_cons, List.append_assoc, hchar, hchars, String.toList_push,
            List.append_assoc, List.singleton_append]

/-- A string in quotes is read back, given a round for each of its characters and its end. -/
theorem readString_quoted (value : String) {rounds : Nat} (hrounds : value.toList.length < rounds)
    (rest : List Char) (offset : Nat) :
    ∃ after, readString rounds "" ⟨(quoted value).tail ++ rest, offset⟩ =
      .ok (value, ⟨rest, after⟩) := by
  obtain ⟨after, hread⟩ := readString_flatMap_escape value.toList hrounds "" rest offset
  refine ⟨after, ?_⟩
  rw [quoted, List.tail_cons, List.append_assoc, List.singleton_append, hread, String.toList_empty,
    List.nil_append, String.ofList_toList]

end WebToken.Json
