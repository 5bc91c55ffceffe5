import WebToken.Proofs.Jwk
import WebToken.Proofs.Token.Consistent

/-! A token that was read is checked over the very octets that were received: it writes the same
text again, and what its signature covers is the part of that text before the last point. -/

namespace WebToken.Token

/-- A text that was read is the compact form of the texts and the signature of its token. -/
theorem eq_write_of_read {text : String} {token : Token}
    (h : (read text).run.value = .ok token) :
    text = Compact.write token.writtenHeader token.writtenClaims (some token.signature.octets) := by
  obtain ⟨parts, hread, hparts⟩ := (read_eq_ok_iff _ _).mp h
  obtain ⟨header, claims, _, _, _, rfl⟩ := (ofParts_eq_ok_iff _ _).mp hparts
  exact ((Compact.read_eq_ok_iff _ _).mp hread).1

/-- The signature of a token is valid if the token has one, the document gives a key for its
algorithm, and the signature fits the key. -/
theorem hasValidSignature_iff (token : Token) (document : Json) :
    (token.hasValidSignature document).value.2 = true ↔
      token.algorithm.isSigning = true ∧ token.signature.isEmpty = false ∧
        ∃ key, (verifyingKey document token.algorithm).run.value = .ok key ∧
          (token.algorithm.verify key token.signingInput token.signature.octets).value = true := by
  rw [hasValidSignature]
  cases hsigning : token.algorithm.isSigning with
  | false => simp
  | true =>
      cases hempty : token.signature.isEmpty with
      | true => simp
      | false =>
          simp only [Bool.not_true, Bool.or_self, Bool.false_eq_true, if_false, Logged.value_bind,
            true_and]
          cases hkey : (verifyingKey document token.algorithm).run.value with
          | error cause => simp
          | ok key => simp

theorem Consistent.signature_of_isSigning {token : Token} (h : token.Consistent)
    (hsigning : token.algorithm.isSigning = true) : token.signature.isEmpty = false := by
  rw [h.isSigning_eq] at hsigning
  exact Bool.not_eq_eq_eq_not.mp hsigning

/-- A valid signature under a secret is the keyed hash of the octets it covers. -/
theorem exists_secret_of_hasValidSignature {token : Token} {hash : Hash}
    (halgorithm : token.algorithm = .signing .symmetric hash) {document : Json}
    (h : (token.hasValidSignature document).value.2 = true) :
    ∃ (members : Members) (secret : Octets), document = .object members ∧
      members.find? "kty" = some (.string "oct") ∧
      members.find? "k" = some (.string (Base64Url.encode secret)) ∧
      0 < secret.length ∧ secret.length ≤ 1024 ∧
      token.signature.octets = hash.hmac secret token.signingInput := by
  obtain ⟨_, _, key, hkey, hverify⟩ := (hasValidSignature_iff token document).mp h
  rw [halgorithm] at hkey hverify
  obtain ⟨members, secret, hdocument, hkeyType, hsecret, hpos, hlength, rfl⟩ :=
    (verifyingKey_symmetric_iff _ _ _).mp hkey
  exact ⟨members, secret, hdocument, hkeyType, hsecret, hpos, hlength,
    (Algorithm.verify_symmetric_iff _ _ _ _).mp hverify⟩

theorem hasValidSignature_symmetric_iff {token : Token} (hconsistent : token.Consistent)
    {hash : Hash} (halgorithm : token.algorithm = .signing .symmetric hash) (document : Json) :
    (token.hasValidSignature document).value.2 = true ↔
      ∃ (members : Members) (secret : Octets), document = .object members ∧
        members.find? "kty" = some (.string "oct") ∧
        members.find? "k" = some (.string (Base64Url.encode secret)) ∧
        0 < secret.length ∧ secret.length ≤ 1024 ∧
        token.signature.octets = hash.hmac secret token.signingInput := by
  refine ⟨exists_secret_of_hasValidSignature halgorithm, ?_⟩
  rintro ⟨members, secret, hdocument, hkeyType, hsecret, hpos, hlength, hsignature⟩
  have hsigning : token.algorithm.isSigning = true := by rw [halgorithm]; rfl
  have hkey := (verifyingKey_symmetric_iff document hash _).mpr
    ⟨members, secret, hdocument, hkeyType, hsecret, hpos, hlength, rfl⟩
  rw [hasValidSignature_iff, hconsistent.signature_of_isSigning hsigning, hsigning, halgorithm]
  exact ⟨rfl, rfl, _, hkey, (Algorithm.verify_symmetric_iff _ _ _ _).mpr hsignature⟩

/-- Verification is over the octets that were received. -/
theorem verification_of_read {text : String} {token : Token}
    (h : (read text).run.value = .ok token) :
    ∃ signed last : String, text = signed ++ "." ++ last ∧ '.' ∉ last.toList ∧
      (token.write true).value.2 = text ∧ (token.write false).value.2 = signed ∧
      ∃ signature, Base64Url.decodeOctets (Octets.ofText last) = .ok signature ∧
        ∀ document : Json,
          ((token.hasValidSignature document).value.2 = true ↔
            token.algorithm.isSigning = true ∧
              ∃ key, (verifyingKey document token.algorithm).run.value = .ok key ∧
                (token.algorithm.verify key (Octets.ofText signed) signature).value = true) ∧
          ∀ hash, token.algorithm = .signing .symmetric hash →
            ((token.hasValidSignature document).value.2 = true ↔
              ∃ (members : Members) (k : String) (secret : Octets), document = .object members ∧
                members.find? "kty" = some (.string "oct") ∧
                members.find? "k" = some (.string k) ∧
                Base64Url.decodeOctets (Octets.ofText k) = .ok secret ∧
                1 ≤ secret.length ∧ secret.length ≤ 1024 ∧
                signature = hash.hmac secret (Octets.ofText signed)) := by
  have hconsistent := consistent_of_initial (.read h)
  have htext := eq_write_of_read h
  refine ⟨Compact.signingInput token.writtenHeader token.writtenClaims,
    Base64Url.encode token.signature.octets, htext, Base64Url.point_not_mem_encode _,
    ?_, rfl, token.signature.octets, (Base64Url.decodeOctets_eq_ok_iff _ _).mpr rfl,
    fun document => ⟨?_, fun hash halgorithm => ?_⟩⟩
  · rw [value_write]
    exact htext.symm
  · rw [hasValidSignature_iff]
    constructor
    · rintro ⟨hsigning, _, key, hkey, hverify⟩
      exact ⟨hsigning, key, hkey, hverify⟩
    · rintro ⟨hsigning, key, hkey, hverify⟩
      exact ⟨hsigning, hconsistent.signature_of_isSigning hsigning, key, hkey, hverify⟩
  · rw [hasValidSignature_symmetric_iff hconsistent halgorithm]
    constructor
    · rintro ⟨members, secret, hdocument, hkeyType, hk, hpos, hlength, hsignature⟩
      exact ⟨members, _, secret, hdocument, hkeyType, hk,
        (Base64Url.decodeOctets_eq_ok_iff _ _).mpr rfl, hpos, hlength, hsignature⟩
    · rintro ⟨members, k, secret, hdocument, hkeyType, hk, hdecode, hpos, hlength, hsignature⟩
      obtain rfl := Octets.ofText_injective ((Base64Url.decodeOctets_eq_ok_iff _ _).mp hdecode)
      exact ⟨members, secret, hdocument, hkeyType, hk, hpos, hlength, hsignature⟩

/-- The token whose secret is the letter `a` is valid under it. -/
theorem verification_of_letter_secret :
    ∃ token, (read
        "eyJhbGciOiJIUzI1NiJ9.e30.bEionjP7X5J_VkgbZPrgfmAbNskfY4eG97AIRGA5kGg").run.value =
          .ok token ∧
      (token.write false).value.2 = "eyJhbGciOiJIUzI1NiJ9.e30" ∧
      (token.hasValidSignature (.object [("kty", .string "oct"), ("k", .string "YQ")])).value.2 =
        true := by
  let mac : Octets :=
    [108, 72, 168, 158, 51, 251, 95, 146, 127, 86, 72, 27, 100, 250, 224, 126,
      96, 27, 54, 201, 31, 99, 135, 134, 247, 176, 8, 68, 96, 57, 144, 104]
  let token : Token :=
    ⟨[("alg", .string "HS256")], [], some "\x7b\"alg\":\"HS256\"\x7d", some "\x7b\x7d",
      .signing .symmetric .sha256, ⟨mac, by decide⟩⟩
  have hread : (read
      "eyJhbGciOiJIUzI1NiJ9.e30.bEionjP7X5J_VkgbZPrgfmAbNskfY4eG97AIRGA5kGg").run.value =
        .ok token := rfl
  have hmac : mac = Hash.sha256.hmac [97] (Octets.ofText "eyJhbGciOiJIUzI1NiJ9.e30") := by
    decide +kernel
  obtain ⟨signed, last, htext, _, _, hsigned, signature, hsignature, hverify⟩ :=
    verification_of_read hread
  obtain rfl : "eyJhbGciOiJIUzI1NiJ9.e30" = signed := hsigned
  obtain rfl : last = "bEionjP7X5J_VkgbZPrgfmAbNskfY4eG97AIRGA5kGg" :=
    (String.append_right_inj _).mp htext.symm
  refine ⟨token, hread, rfl, ((hverify _).2 .sha256 rfl).mpr ?_⟩
  refine ⟨_, "YQ", [97], rfl, rfl, rfl, rfl, by decide, by decide, ?_⟩
  exact (Except.ok.inj (hsignature.symm.trans rfl)).trans hmac

end WebToken.Token
