import WebToken.Proofs.Signature
import WebToken.Token.Claims

/-! What each operation makes of a token, whatever it reports. -/

namespace WebToken.Token

/-! ### Reading -/

theorem readObject_eq_ok_iff (segment : Segment) (text : String) (members : Members) :
    readObject segment text = .ok members ↔ Json.parse text = .ok (.object members) := by
  rw [readObject]
  constructor
  · intro h
    split at h
    · rename_i found hparse
      cases h
      exact hparse
    · cases h
    · cases h
  · intro h
    rw [h]

/-- The token of parts whose texts hold the given members. -/
def received (parts : Compact) (header claims : Members) : Token where
  header := header
  claims := claims
  headerText := some parts.header
  claimsText := some parts.claims
  algorithm := headerAlgorithm header
  signature := parts.signature

theorem ofParts_eq_ok_iff (parts : Compact) (token : Token) :
    ofParts parts = .ok token ↔ ∃ header claims,
      Json.parse parts.header = .ok (.object header) ∧
      Json.parse parts.claims = .ok (.object claims) ∧
      (headerAlgorithm header).isSigning ≠ parts.signature.isEmpty ∧
      token = received parts header claims := by
  simp only [ofParts, bind_eq_ok_iff, readObject_eq_ok_iff]
  constructor
  · rintro ⟨header, hheader, claims, hclaims, h⟩
    split at h
    · cases h
    · rename_i hfits
      cases h
      exact ⟨header, claims, hheader, hclaims, hfits, rfl⟩
  · rintro ⟨header, claims, hheader, hclaims, hfits, rfl⟩
    exact ⟨header, hheader, claims, hclaims, if_neg hfits⟩

/-- A token is made of what its text decodes to, and of nothing else. -/
theorem value_read (text : String) :
    (read text).run.value = (Compact.decode text).run.value >>= ofParts := by
  simp only [read, value_run_bind, value_run_lift, value_run_report]
  cases (Compact.decode text).run.value with
  | error cause => rfl
  | ok parts =>
      show (ofParts parts >>= fun token => _) = ofParts parts
      cases ofParts parts <;> rfl

theorem read_eq_ok_iff (text : String) (token : Token) :
    (read text).run.value = .ok token ↔
      ∃ parts, Compact.read text = .ok parts ∧ ofParts parts = .ok token := by
  rw [value_read, Compact.value_decode, bind_eq_ok_iff]

/-! ### Writing and checking -/

theorem value_write (token : Token) (withSignature : Bool) :
    (token.write withSignature).value =
      (token.settled, Compact.write token.writtenHeader token.writtenClaims
        (if withSignature then some token.signature.octets else none)) := rfl

/-- Checking a signature at most fills in the texts of the token. -/
theorem hasValidSignature_token (token : Token) (document : Json) :
    (token.hasValidSignature document).value.1 = token ∨
      (token.hasValidSignature document).value.1 = token.settled := by
  simp only [hasValidSignature]
  split
  · exact Or.inl rfl
  · rw [Logged.value_bind]
    split
    · exact Or.inr rfl
    · exact Or.inl rfl

/-! ### Signing -/

/-- The token that a signature makes of one that was prepared for it. -/
def signed (token : Token) (algorithm : Algorithm) (signature : Signature) : Token :=
  { (token.prepared algorithm).settled with algorithm := algorithm, signature := signature }

/-- The token that is left when a signature was refused. -/
def unsigned (token : Token) (algorithm : Algorithm) : Token :=
  (token.prepared algorithm).settled.withdrawn

/-- The token that is left without a signature. What breaks off leaves the algorithm in its header. -/
def failed (token : Token) (algorithm : Algorithm) : Failure → Token
  | .error _ => token.unsigned algorithm
  | .crash => (token.prepared algorithm).settled

/-- Signing ends in one of three ways: refused for its arguments, failed, or with a signature. -/
theorem sign_cases (token : Token) (algorithm : Algorithm) (document : Json) :
    ((algorithm.isSigning = false ∨ document.asObject? = none) ∧
      ∃ cause, (token.sign algorithm document).value = (token, .error (.error cause))) ∨
    (algorithm.isSigning = true ∧ document.asObject? ≠ none ∧
      ((∃ failure,
        ((token.prepared algorithm).settled.computeSignature algorithm document).run.value =
          .error failure ∧
        (token.sign algorithm document).value = (token.failed algorithm failure, .error failure)) ∨
      ∃ signature,
        ((token.prepared algorithm).settled.computeSignature algorithm document).run.value =
          .ok signature ∧
        (token.sign algorithm document).value = (token.signed algorithm signature, .ok ()))) := by
  cases hsigning : algorithm.isSigning with
  | false =>
      refine Or.inl ⟨Or.inl rfl, .noneCannotSign, ?_⟩
      simp [sign, hsigning]
  | true =>
      cases hobject : document.asObject? with
      | none =>
          refine Or.inl ⟨Or.inr rfl, .keyDocumentMissing, ?_⟩
          simp [sign, hsigning, hobject]
      | some members =>
          refine Or.inr ⟨rfl, Option.some_ne_none _, ?_⟩
          cases hcomputed : ((token.prepared algorithm).settled.computeSignature algorithm
              document).run.value with
          | error failure =>
              refine Or.inl ⟨failure, rfl, ?_⟩
              cases failure with
              | error cause => simp [sign, hsigning, hobject, hcomputed, failed, unsigned]
              | crash => simp [sign, hsigning, hobject, hcomputed, failed]
          | ok signature =>
              refine Or.inr ⟨signature, rfl, ?_⟩
              simp [sign, hsigning, hobject, hcomputed, signed]

/-- Signing that succeeds has made a signature for the prepared token. -/
theorem exists_signature_of_sign {token result : Token} {algorithm : Algorithm} {document : Json}
    (h : (token.sign algorithm document).value = (result, .ok ())) :
    algorithm.isSigning = true ∧ document.asObject? ≠ none ∧ ∃ signature,
      ((token.prepared algorithm).settled.computeSignature algorithm document).run.value =
        .ok signature ∧ result = token.signed algorithm signature := by
  obtain ⟨_, cause, hvalue⟩ |
    ⟨hsigning, hobject, ⟨failure, _, hvalue⟩ | ⟨signature, hsigned, hvalue⟩⟩ :=
      token.sign_cases algorithm document
  · cases h.symm.trans hvalue
  · cases h.symm.trans hvalue
  · obtain ⟨rfl, _⟩ := Prod.mk.inj (h.symm.trans hvalue)
    exact ⟨hsigning, hobject, signature, hsigned, rfl⟩

/-- A signature is what the key of the document signs. -/
theorem value_computeSignature (token : Token) (algorithm : Algorithm) (document : Json) :
    (token.computeSignature algorithm document).run.value = (do
      let key ← (signingKey document algorithm).run.value
      Outcome.ofExcept (algorithm.sign key token.signingInput).run.value) := by
  have hlifted : (ExceptT.lift (signingKey document algorithm).run : Action _).run.value =
      .ok (signingKey document algorithm).run.value := rfl
  rw [computeSignature, value_run_bind, hlifted]
  cases hkey : (signingKey document algorithm).run.value with
  | ok key => rfl
  | error failure => cases failure <;> rfl

/-- A signature is computed if the document gives a key and the key can sign. -/
theorem computeSignature_eq_ok_iff (token : Token) (algorithm : Algorithm) (document : Json)
    (signature : Signature) :
    (token.computeSignature algorithm document).run.value = .ok signature ↔
      ∃ key, (signingKey document algorithm).run.value = .ok key ∧
        (algorithm.sign key token.signingInput).run.value = .ok signature := by
  simp only [value_computeSignature, bind_eq_ok_iff, ofExcept_eq_ok_iff]

/-- The signature of a token is one of its algorithm. -/
theorem length_pos_of_computeSignature {token : Token} {algorithm : Algorithm} {document : Json}
    {signature : Signature}
    (h : (token.computeSignature algorithm document).run.value = .ok signature) :
    0 < signature.length := by
  obtain ⟨key, _, hsign⟩ := (computeSignature_eq_ok_iff _ _ _ _).mp h
  exact Algorithm.length_pos_of_sign hsign

end WebToken.Token
