import WebToken.Proofs.Json.Spelling
import WebToken.Proofs.Token.Claims

/-! Numeric claims in the token. A claim that is set to a finite number is that number, whole or not: whole
numbers are kept as whole only where a binary number and an integer stand for each other exactly, and such
a claim is written with its digits alone. What is not finite is refused, and leaves everything as it
was. -/

namespace WebToken

namespace JsonNumber

/-- Whole numbers that no neighbour rounds to are kept as whole. -/
theorem ofBinary64?_of_whole {value : Binary64} (finite : value.isFinite = true) {whole : ℤ}
    (hvalue : value.toRat = whole) (hsmall : whole.natAbs ≤ 9007199254740991) :
    ∃ bounded, ofBinary64? value = some (.integer whole bounded) := by
  have hwhole := (Binary64.toInt?_eq_some_iff value whole).mpr ⟨finite, hvalue⟩
  have hlimit : whole.natAbs < 0x20000000000000 := by omega
  refine ⟨by omega, ?_⟩
  rw [ofBinary64?, hwhole]
  exact dif_pos hlimit

end JsonNumber

namespace Token

/-- The claim is kept as the whole number, and the text of the claims has it in its place, in plain
notation. -/
structure ShowsWhole (token : Token) (name : String) (whole : ℤ) : Prop where
  kept : ∃ bounded, token.claim? name = some (.number (.integer whole bounded))
  shown : ∃ (front back : Members) (bounded : _) (numeral : List Char),
    token.claims = front ++ (name, .number (.integer whole bounded)) :: back ∧
      name ∉ front.names ∧ Json.PlainDecimal whole numeral ∧
      token.writtenClaims.toList = '{' ::
        (front.flatMap (fun member => Json.spellingOfMember member ++ [',']) ++
          (Json.quoted name ++ ':' :: numeral) ++ Json.further Json.spellingOfMember back ++ ['}'])

theorem showsWhole_of_claim? {token : Token} (htext : token.claimsText = none) {name : String}
    {whole : ℤ} {bounded : -0x8000000000000000 ≤ whole ∧ whole < 0x10000000000000000}
    (h : token.claim? name = some (.number (.integer whole bounded))) :
    token.ShowsWhole name whole where
  kept := ⟨bounded, h⟩
  shown := by
    obtain ⟨front, back, hclaims, hnew⟩ := Members.exists_of_find? h
    refine ⟨front, back, bounded, (Json.integerText whole).toList, hclaims, hnew,
      Json.plainDecimal_integerText whole, ?_⟩
    have hwritten : token.writtenClaims.toList = Json.spelling (.object token.claims) := by
      rw [writtenClaims, htext]
      rfl
    rw [hwritten, hclaims, Json.spelling_object, Json.listed_between, Json.spellingOfMember,
      Json.spelling_number, Json.numberText]
    simp only [List.append_assoc]

/-- A claim that is set to a finite number is that number, and if it is whole and told apart from its
neighbours it is kept and written as a whole one. A number that is not finite is refused, and the step
leaves the whole session as it was. -/
theorem setNumber_keeps_value (session : Script.Session) (name : String) (value : Binary64) :
    (value.isFinite = true → ∃ token,
      session.current.setNumber name value = .ok token ∧
      session.step (.setNumber name value) = pure (session.put token, .ok .done) ∧
      (∃ found, token.claimNumber? name = some found ∧ found.isFinite = true ∧
        found.toRat = value.toRat) ∧
      ∀ whole : ℤ, value.toRat = whole → whole.natAbs ≤ 9007199254740991 →
        token.ShowsWhole name whole) ∧
    (value.isFinite = false →
      session.current.setNumber name value = .error (.numberNotFinite value) ∧
      session.step (.setNumber name value) =
        pure (session, .error (.error (.numberNotFinite value)))) := by
  constructor
  · intro hfinite
    obtain ⟨number, hnumber⟩ : ∃ number, JsonNumber.ofBinary64? value = some number := by
      refine Option.ne_none_iff_exists'.mp fun hnone => ?_
      rw [(JsonNumber.ofBinary64?_eq_none_iff value).mp hnone] at hfinite
      cases hfinite
    have hset : session.current.setNumber name value =
        .ok (session.current.setClaim name (.number number)) := by
      rw [setNumber, hnumber]
    have hclaim : (session.current.setClaim name (.number number)).claim? name =
        some (.number number) := by
      rw [claim?, setClaim, Members.find?_insert, if_pos rfl]
    refine ⟨_, hset, by rw [Script.Session.step, hset], ⟨number.toBinary64, ?_, ?_⟩,
      fun whole hvalue hsmall => ?_⟩
    · rw [claimNumber?, hclaim]
      rfl
    · exact JsonNumber.toRat_of_ofBinary64? hnumber
    · obtain ⟨bounded, hwhole⟩ := JsonNumber.ofBinary64?_of_whole hfinite hvalue hsmall
      cases hnumber.symm.trans hwhole
      exact showsWhole_of_claim? rfl hclaim
  · intro hinfinite
    have hnone := (JsonNumber.ofBinary64?_eq_none_iff value).mpr hinfinite
    have hrefused : session.current.setNumber name value = .error (.numberNotFinite value) := by
      rw [setNumber, hnone]
    exact ⟨hrefused, by rw [Script.Session.step, hrefused]⟩

/-- A claim that was read, with its text, is set to the least whole number that is kept as such, and to minus
zero, which is kept as zero; a number that is none leaves the session with the text as it was read. -/
theorem setNumber_keeps_least_whole :
    ∃ (session : Script.Session) (least zero : Token),
      (read "e30.eyJhIjoiMSIsImIiOiIyIn0.").run.value = .ok session.current ∧
      session.current.claimsText = some "\x7b\"a\":\"1\",\"b\":\"2\"\x7d" ∧
      Binary64.isFinite ⟨0xC33FFFFFFFFFFFFF⟩ = true ∧
      session.current.setNumber "a" ⟨0xC33FFFFFFFFFFFFF⟩ = .ok least ∧
      Binary64.toRat ⟨0xC33FFFFFFFFFFFFF⟩ = (-9007199254740991 : ℤ) ∧
      least.ShowsWhole "a" (-9007199254740991) ∧
      Binary64.isFinite ⟨0x8000000000000000⟩ = true ∧
      session.current.setNumber "a" ⟨0x8000000000000000⟩ = .ok zero ∧
      Binary64.toRat ⟨0x8000000000000000⟩ = (0 : ℤ) ∧ zero.ShowsWhole "a" 0 ∧
      (∃ found, zero.claimNumber? "a" = some found ∧ found.toRat = (0 : ℤ)) ∧
      Binary64.isFinite ⟨0x7FF8000000000000⟩ = false ∧
      session.step (.setNumber "a" ⟨0x7FF8000000000000⟩) =
        pure (session, .error (.error (.numberNotFinite ⟨0x7FF8000000000000⟩))) := by
  let session : Script.Session :=
    ⟨⟨[], [("a", .string "1"), ("b", .string "2")], some "\x7b\x7d",
      some "\x7b\"a\":\"1\",\"b\":\"2\"\x7d", .none, .empty⟩, none⟩
  have hleast : Binary64.isFinite ⟨0xC33FFFFFFFFFFFFF⟩ = true := by decide
  have hzero : Binary64.isFinite ⟨0x8000000000000000⟩ = true := by decide
  have hnone : Binary64.isFinite ⟨0x7FF8000000000000⟩ = false := by decide
  have hleastValue : Binary64.toRat ⟨0xC33FFFFFFFFFFFFF⟩ = (-9007199254740991 : ℤ) :=
    ((Binary64.toInt?_eq_some_iff _ _).mp (by decide +kernel)).2
  have hzeroValue : Binary64.toRat ⟨0x8000000000000000⟩ = (0 : ℤ) :=
    ((Binary64.toInt?_eq_some_iff _ _).mp (by decide +kernel)).2
  obtain ⟨least, hsetLeast, _, _, hleastWhole⟩ := (setNumber_keeps_value session "a" _).1 hleast
  obtain ⟨zero, hsetZero, _, ⟨found, hfound, _, hfoundValue⟩, hzeroWhole⟩ :=
    (setNumber_keeps_value session "a" _).1 hzero
  exact ⟨session, least, zero, rfl, rfl, hleast, hsetLeast, hleastValue,
    hleastWhole _ hleastValue (by decide), hzero, hsetZero, hzeroValue,
    hzeroWhole _ hzeroValue (by decide), ⟨found, hfound, hfoundValue.trans hzeroValue⟩, hnone,
    ((setNumber_keeps_value session "a" _).2 hnone).2⟩

end Token

end WebToken
