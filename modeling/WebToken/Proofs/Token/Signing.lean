import WebToken.Proofs.Token.RoundTrip
import WebToken.Proofs.Token.Verification
import WebToken.Proofs.Verification

/-! A document that has signed a token finds the signature valid, on the token itself and on the token
that is read from what it writes. Reading may change numbers in the header, but not the algorithm it
names; and what is checked is the text of the header, which is kept as it was written. -/

namespace WebToken.Token

/-- Whether a signature is valid depends on the algorithm, the texts and the signature only. -/
theorem hasValidSignature_congr {left right : Token} (halgorithm : left.algorithm = right.algorithm)
    (hheader : left.writtenHeader = right.writtenHeader)
    (hclaims : left.writtenClaims = right.writtenClaims)
    (hsignature : left.signature.octets = right.signature.octets) (document : Json) :
    (left.hasValidSignature document).value.2 = true ↔
      (right.hasValidSignature document).value.2 = true := by
  have hinput : left.signingInput = right.signingInput := by
    rw [signingInput, signingInput, hheader, hclaims]
  have hempty : left.signature.isEmpty = right.signature.isEmpty := by
    rw [BoundedOctets.isEmpty, BoundedOctets.isEmpty, hsignature]
  rw [hasValidSignature_iff, hasValidSignature_iff, halgorithm, hsignature, hinput, hempty]

theorem hasValidSignature_signed {token : Token} {family : Family} (hfamily : family ≠ .ecdsa)
    {hash : Hash} {document : Json} {signature : Signature}
    (h : ((token.prepared (.signing family hash)).settled.computeSignature (.signing family hash)
      document).run.value = .ok signature) :
    ((token.signed (.signing family hash) signature).hasValidSignature document).value.2 = true := by
  have hlength := length_pos_of_computeSignature h
  obtain ⟨key, hkey, hsign⟩ := (computeSignature_eq_ok_iff _ _ _ _).mp h
  obtain ⟨other, hother, hverify⟩ := verify_of_sign hfamily hkey hsign
  refine (hasValidSignature_iff _ _).mpr ⟨rfl, ?_, other, hother, hverify⟩
  change signature.octets.isEmpty = false
  rw [List.isEmpty_eq_false_iff_exists_mem]
  exact List.exists_mem_of_length_pos hlength

/-- What is read from the compact form of a token has the texts and the signature of the token. -/
theorem parts_of_read_write {token imported : Token}
    (h : (read (token.write true).value.2).run.value = .ok imported) :
    imported.writtenHeader = token.writtenHeader ∧ imported.writtenClaims = token.writtenClaims ∧
      imported.signature.octets = token.signature.octets := by
  have hwritten := eq_write_of_read h
  rw [value_write] at hwritten
  obtain ⟨hheader, hclaims, hsignature⟩ := Compact.write_injective hwritten
  exact ⟨hheader.symm, hclaims.symm, hsignature.symm⟩

/-- The texts of a token that was read stand for its members, and its header names its algorithm. -/
theorem parse_of_read {text : String} {token : Token} (h : (read text).run.value = .ok token) :
    Json.parse token.writtenHeader = .ok (.object token.header) ∧
      Json.parse token.writtenClaims = .ok (.object token.claims) ∧
      token.algorithm = headerAlgorithm token.header := by
  obtain ⟨parts, _, hparts⟩ := (read_eq_ok_iff _ _).mp h
  obtain ⟨header, claims, hheader, hclaims, _, rfl⟩ := (ofParts_eq_ok_iff _ _).mp hparts
  exact ⟨hheader, hclaims, rfl⟩

/-- Reading finds the algorithm of a token whose header was printed to sign it. -/
theorem algorithm_of_read_signed {token imported : Token}
    (hunique : Json.Every Json.NamesUnique (.object token.header)) (algorithm : Algorithm)
    (signature : Signature)
    (h : (read ((token.signed algorithm signature).write true).value.2).run.value = .ok imported) :
    imported.algorithm = algorithm := by
  obtain ⟨hparse, _, hnamed⟩ := parse_of_read h
  rw [(parts_of_read_write h).1] at hparse
  have houtline := Json.outline_of_parse_print
    (Json.every_namesUnique_insert hunique "alg" (every_namesUnique_string algorithm.name)) hparse
  rw [hnamed, headerAlgorithm_of_outline houtline]
  exact headerAlgorithm_insert token.header algorithm

/-- What a document signs with a secret or an RSA key, it finds valid: on the signed token, whatever
was done to the token before, and on every token that is read from what the signed one writes. -/
theorem hasValidSignature_of_sign {first : Token} (hfirst : Script.Initial first)
    {commands : List Script.Command} {session : Script.Session}
    (hsession : session ∈ Script.Session.states ⟨first, none⟩ commands) {family : Family}
    (hfamily : family = .symmetric ∨ family = .rsa) {hash : Hash} {document : Json} {token : Token}
    (hsign : (session.current.sign (.signing family hash) document).value = (token, .ok ())) :
    (token.hasValidSignature document).value.2 = true ∧
      ∀ imported, (read (token.write true).value.2).run.value = .ok imported →
        (imported.hasValidSignature document).value.2 = true := by
  have hunique := (readable_header_of_states hfirst hsession).unique
  have hnotEcdsa : family ≠ .ecdsa := by rcases hfamily with rfl | rfl <;> decide
  obtain ⟨_, cause, hvalue⟩ | ⟨_, _, ⟨failure, _, hvalue⟩ | ⟨signature, hsigned, hvalue⟩⟩ :=
    session.current.sign_cases (.signing family hash) document
  · cases hsign.symm.trans hvalue
  · cases hsign.symm.trans hvalue
  · obtain ⟨rfl, _⟩ := Prod.mk.inj (hsign.symm.trans hvalue)
    have hvalid := hasValidSignature_signed hnotEcdsa hsigned
    refine ⟨hvalid, fun imported himported => ?_⟩
    obtain ⟨hheader, hclaims, hoctets⟩ := parts_of_read_write himported
    have halgorithm := algorithm_of_read_signed hunique _ _ himported
    exact (hasValidSignature_congr halgorithm hheader hclaims hoctets document).mpr hvalid

/-- An RSA document whose member `p` is 561, the product of 3, 11 and 17. -/
def compositeKey : Json :=
  .object
    [("kty", .string "RSA"),
      ("n", .string
        "TqlmObt5QnDs5pzC8kVSiALEe46fXPjBPc-a7nd7PC4pT8srZphWsWIr9TzdgiJa5JQBNgu_PBj69mVfMlk"),
      ("e", .string "Aw"),
      ("d", .string
        "7025zZkYD_HHavht9sjaOFA3AsJ21mNXlsYP6kybQhuQ_up1vCTtkrw5rHRo-xWdaVhj0Uo4Yt0bauuvCw"),
      ("p", .string "AjE"),
      ("q", .string
        "I-VCRT1dNZd3gz7dS2rtiHJuptBeoCiAVp21llhKfR28JjzE3Di9PGkIpqsPv0M-AwB1X2S7qG33UAnAqQ")]

/-- A key made of numbers that are not prime signs, and what it signs is valid and is read again. -/
theorem hasValidSignature_of_composite_sign :
    ∃ token imported, ((new none).sign (.signing .rsa .sha256) compositeKey).value = (token, .ok ()) ∧
      (token.hasValidSignature compositeKey).value.2 = true ∧
      (read (token.write true).value.2).run.value = .ok imported ∧
      (imported.hasValidSignature compositeKey).value.2 = true := by
  have hdone : ((new none).sign (.signing .rsa .sha256) compositeKey).value.2 = .ok () := by
    decide +kernel
  have hread : (read (((new none).sign (.signing .rsa .sha256) compositeKey).value.1.write
      true).value.2).run.value.isOk = true := by
    decide +kernel
  cases hsign : ((new none).sign (.signing .rsa .sha256) compositeKey).value with
  | mk token outcome =>
      rw [hsign] at hdone hread
      obtain rfl : outcome = .ok () := hdone
      obtain ⟨hvalid, hlater⟩ := hasValidSignature_of_sign (.new none)
        (show _ ∈ Script.Session.states _ [] from List.mem_cons_self) (Or.inr rfl) hsign
      cases himported : (read (token.write true).value.2).run.value with
      | error cause =>
          rw [himported] at hread
          cases hread
      | ok imported =>
          exact ⟨token, imported, rfl, hvalid, himported, hlater imported himported⟩

end WebToken.Token
