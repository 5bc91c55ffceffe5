import WebToken.Proofs.Token.Operations

/-! What signing and checking a signature report, told by what they come to. -/

namespace WebToken

namespace Algorithm

variable {algorithm : Algorithm}

/-- What signing reports of its result: of a signature only the length. -/
def signReport (scheme : Scheme) (keyType : String) : Except Error Nat → List Event
  | .ok length => [.signed scheme.algorithm length]
  | .error cause => [.signingFailed scheme.algorithm keyType cause]

theorem run_sign {scheme : Scheme} (hscheme : Scheme.ofAlgorithm algorithm = .ok scheme) (key : Key)
    (input : Octets) :
    (algorithm.sign key input).run =
      ⟨scheme.sign key input,
        signReport scheme key.kind (BoundedOctets.length <$> scheme.sign key input)⟩ := by
  have hfound : (liftM (Except.ok scheme : Except Error Scheme) : Attempt Scheme).run =
      ⟨.ok scheme, []⟩ := rfl
  rw [sign, hscheme]
  refine run_bind_ok hfound ?_
  cases scheme.sign key input <;> rfl

theorem value_verify (key : Key) (input signature : Octets) :
    (algorithm.verify key input signature).value =
      (algorithm.check key input signature).isOk := by
  rw [verify]
  cases algorithm.check key input signature <;> rfl

end Algorithm

namespace Token

variable {algorithm : Algorithm} {document : Json} {events : List Event}

/-- The log of signing ends with what became of the key. -/
def keyEvents (input : Octets) (algorithm : Algorithm) : Outcome Key → List Event
  | .ok key => (algorithm.sign key input).run.events
  | .error (.error cause) => [.signingKeyRejected algorithm cause]
  | .error .crash => []

theorem run_computeSignature (token : Token) {found : Outcome Key}
    (h : (signingKey document algorithm).run = ⟨found, events⟩) :
    (token.computeSignature algorithm document).run =
      ⟨found >>= fun key => Outcome.ofExcept (algorithm.sign key token.signingInput).run.value,
        events ++ keyEvents token.signingInput algorithm found⟩ := by
  have hlifted : (ExceptT.lift (signingKey document algorithm).run : Action _).run =
      ⟨.ok found, events⟩ := by
    change Logged.mk (Except.ok (signingKey document algorithm).run.value)
      ((signingKey document algorithm).run.events ++ []) = _
    rw [h, List.append_nil]
  rw [computeSignature]
  refine run_bind_ok hlifted ?_
  cases found with
  | ok key => exact run_liftM rfl
  | error failure => cases failure <;> rfl

/-- Signing reports what computing the signature reports, and ends as that does. -/
theorem sign_object (token : Token) (hsigning : algorithm.isSigning = true) {members : Members} :
    (token.sign algorithm (.object members)).events =
      ((token.prepared algorithm).settled.computeSignature algorithm (.object members)).run.events ∧
    (token.sign algorithm (.object members)).value.2 =
      (fun _ => ()) <$> ((token.prepared algorithm).settled.computeSignature algorithm
        (.object members)).run.value := by
  cases hcomputed : ((token.prepared algorithm).settled.computeSignature algorithm
      (.object members)).run with
  | mk computed events =>
      cases computed with
      | ok signature => simp [sign, hsigning, hcomputed, Json.asObject?, Functor.map, Except.map]
      | error failure =>
          cases failure <;>
            simp [sign, hsigning, hcomputed, Json.asObject?, Functor.map, Except.map]

end Token

end WebToken
