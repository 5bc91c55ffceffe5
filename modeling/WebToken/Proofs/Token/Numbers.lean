import WebToken.Proofs.Json.ComesBack
import WebToken.Proofs.Token.Signing

/-! Numeric claims on the wire. A number that a claim is set to is read again from what the token writes,
within a few units of its last place, and unchanged if it is whole and has no more than sixteen digits, or
if its decimal is short. Other numbers may change: the text stands for the number alone, but its reader
rounds more than once. -/

namespace WebToken

/-- What a claim is set to for a number comes back from its text. -/
theorem JsonNumber.comesBack {value : Binary64} {number : JsonNumber}
    (h : ofBinary64? value = some number) {found : Json}
    (hfound : Json.ReadBack (.number number) found) :
    ∃ back, found.asNumber? = some back ∧ Json.ComesBack value back := by
  have hfloat : ∀ {finite : value.isFinite = true},
      (∀ whole, value.toInt? = some whole → 2 ^ 53 ≤ whole.natAbs) →
      Json.ReadBack (.number (.float value finite)) found →
        ∃ back, found.asNumber? = some back ∧ Json.ComesBack value back := by
    intro finite hlarge hfound
    cases hfound with
    | refl => exact ⟨value, rfl, .of_eq finite rfl⟩
    | float hback => exact ⟨_, rfl, Json.comesBack_of_readBack finite hlarge hback⟩
  rw [ofBinary64?] at h
  split at h
  · rename_i whole hwhole
    split at h
    · rename_i hsmall
      cases h
      cases hfound
      have hbound : whole.natAbs ≤ 2 ^ 53 := by omega
      obtain ⟨hfinite, hvalue⟩ := Binary64.toRat_ofInt hbound
      exact ⟨_, rfl, .of_eq hfinite (hvalue.trans (Binary64.toRat_of_toInt? hwhole).2.symm)⟩
    · rename_i hlarge
      split at h
      · cases h
        refine hfloat (fun other hother => ?_) hfound
        cases hwhole.symm.trans hother
        omega
      · cases h
  · rename_i hnone
    split at h
    · cases h
      refine hfloat (fun other hother => ?_) hfound
      cases hnone.symm.trans hother
    · cases h

namespace Token

/-- A claim of a token comes back as its text is read. -/
theorem Faithful.claim_of_read_write {token imported : Token} (h : token.Faithful)
    (hread : (read (token.write true).value.2).run.value = .ok imported) {name : String} {value : Json}
    (hclaim : token.claim? name = some value) :
    ∃ found, imported.claim? name = some found ∧ Json.ReadBack value found := by
  obtain ⟨_, hparse, _⟩ := parse_of_read hread
  rw [(parts_of_read_write hread).2.1] at hparse
  obtain ⟨_, members, hmembers, hback⟩ | ⟨_, fault, hfault⟩ := h.claims.parse_cases h.claimsUnique
  · cases hparse.symm.trans hmembers
    exact hback.find? hclaim
  · cases hparse.symm.trans hfault

theorem setNumber_eq_ok_iff (token other : Token) (name : String) (value : Binary64) :
    token.setNumber name value = .ok other ↔
      ∃ number, JsonNumber.ofBinary64? value = some number ∧
        token.setClaim name (.number number) = other := by
  rw [setNumber]
  cases JsonNumber.ofBinary64? value <;> simp

/-- In whatever state a script leads to, a claim is set to a number. If what the token then writes is read,
the claim is a number again: one close to it, and the same one where that can be told from its decimal. -/
theorem claimNumber_of_setNumber {first : Token} (hfirst : Script.Initial first)
    {commands : List Script.Command}
    (hvalues : ∀ name value, .setClaim name value ∈ commands → Json.Every Json.NamesUnique value)
    {session : Script.Session} (hsession : session ∈ Script.Session.states ⟨first, none⟩ commands)
    {name : String} {value : Binary64} {token imported : Token}
    (hset : session.current.setNumber name value = .ok token)
    (hread : (read (token.write true).value.2).run.value = .ok imported) :
    ∃ found, imported.claimNumber? name = some found ∧ Json.ComesBack value found := by
  have hfaithful := faithful_of_states hfirst hvalues hsession
  obtain ⟨number, hnumber, rfl⟩ := (setNumber_eq_ok_iff _ _ _ _).mp hset
  have hunique : Json.Every Json.NamesUnique (.number number) := Json.every_scalar rfl trivial
  have hnext := faithful_invariant.setClaim name hunique hfaithful
  have hclaim : (session.current.setClaim name (.number number)).claim? name =
      some (.number number) := by
    rw [claim?, setClaim, Members.find?_insert, if_pos rfl]
  obtain ⟨claim, hfound, hback⟩ := hnext.claim_of_read_write hread hclaim
  obtain ⟨back, hasNumber, hcomes⟩ := JsonNumber.comesBack hnumber hback
  refine ⟨back, ?_, hcomes⟩
  rw [claimNumber?, hfound, Option.bind_some, hasNumber]

theorem exists_of_toOption_bind {α β : Type} {result : Except Error α} {next : α → Option β} {found : β}
    (h : result.toOption.bind next = some found) :
    ∃ value, result = .ok value ∧ next value = some found := by
  cases result with
  | ok value => exact ⟨value, rfl, h⟩
  | error cause => cases h

/-- A tenth comes back as it was set. -/
theorem claimNumber_of_tenth :
    ∃ token imported found, (new none).setNumber "a" ⟨0x3FB999999999999A⟩ = .ok token ∧
      (read (token.write true).value.2).run.value = .ok imported ∧
      imported.claimNumber? "a" = some found ∧
      found.toRat = Binary64.toRat ⟨0x3FB999999999999A⟩ := by
  have hnumber : JsonNumber.ofBinary64? ⟨0x3FB999999999999A⟩ =
      some (.float ⟨0x3FB999999999999A⟩ rfl) := by
    decide +kernel
  have hset := (setNumber_eq_ok_iff (new none) _ "a" _).mpr ⟨_, hnumber, rfl⟩
  have hback : (read (((new none).setClaim "a" (.number (.float ⟨0x3FB999999999999A⟩ rfl))).write
      true).value.2).run.value.toOption.bind (·.claimNumber? "a") = some ⟨0x3FB999999999999A⟩ := by
    decide +kernel
  obtain ⟨imported, hread, _⟩ := exists_of_toOption_bind hback
  have hstart : Script.Session.start ∈ Script.Session.states Script.Session.start [] :=
    List.mem_cons_self
  obtain ⟨found, hfound, hcomes⟩ := claimNumber_of_setNumber (.new none)
    (fun _ _ hvalue => by cases hvalue) hstart hset hread
  exact ⟨_, imported, found, hset, hread, hfound,
    hcomes.short (by decide +kernel) (by decide +kernel)⟩

/-- The number that is written as 0.9007199254740993 comes back as the one before it: the sixteen digits are
rounded by themselves, and their quotient by `10 ^ 16` once more. -/
theorem claimNumber_ne_of_sixteen_digits :
    ∃ token imported found, (new none).setNumber "a" ⟨0x3FECD2B297D889BD⟩ = .ok token ∧
      (read (token.write true).value.2).run.value = .ok imported ∧
      imported.claimNumber? "a" = some found ∧
      found.toRat ≠ Binary64.toRat ⟨0x3FECD2B297D889BD⟩ := by
  have hnumber : JsonNumber.ofBinary64? ⟨0x3FECD2B297D889BD⟩ =
      some (.float ⟨0x3FECD2B297D889BD⟩ rfl) := by
    decide +kernel
  have hset := (setNumber_eq_ok_iff (new none) _ "a" _).mpr ⟨_, hnumber, rfl⟩
  have hback : (read (((new none).setClaim "a" (.number (.float ⟨0x3FECD2B297D889BD⟩ rfl))).write
      true).value.2).run.value.toOption.bind (·.claimNumber? "a") = some ⟨0x3FECD2B297D889BC⟩ := by
    decide +kernel
  obtain ⟨imported, hread, hfound⟩ := exists_of_toOption_bind hback
  exact ⟨_, imported, _, hset, hread, hfound, by decide +kernel⟩

end Token

end WebToken
