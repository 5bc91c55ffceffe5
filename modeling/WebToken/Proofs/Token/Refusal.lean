import WebToken.Proofs.Rsa.UniqueSignature
import WebToken.Proofs.Token.Operations
import WebToken.Proofs.Token.Secrecy

/-! What operations are refused for. A document is refused for what it holds; the key that it gives
fits its algorithm, so that with it only the operation itself can fail. What is left for signing to
refuse as an argument are the missing algorithm and the missing document. -/

namespace WebToken

/-! ### Documents -/

/-- The cause lies in what a document holds. -/
def Error.OfKey (cause : Error) : Prop :=
  cause.category = .keyMaterial

theorem Error.OfNumbers.ofKey {cause : Error} (h : cause.OfNumbers) : cause.OfKey := by
  obtain ⟨fault, rfl⟩ := h
  rfl

namespace Jwk

variable (jwk : Jwk)

theorem requiredText_refuses (member : String) :
    Refuses Error.OfKey (jwk.requiredText member) := by
  rw [requiredText]
  split
  · exact .error rfl
  · exact .ok _
  · exact .error rfl

theorem octets?_refuses (member : String) : Refuses Error.OfKey (jwk.octets? member) := by
  rw [octets?]
  split
  · exact .ok _
  · split
    · exact .error rfl
    · split
      · exact .error rfl
      · exact .error rfl
      · exact .ok _
  · exact .error rfl

theorem octets_refuses (member : String) : Refuses Error.OfKey (jwk.octets member) := by
  refine (jwk.octets?_refuses member).bind fun found _ => ?_
  split
  · exact .ok _
  · exact .error rfl

theorem checkAlgorithm_refuses (algorithm : Algorithm) (family : Family) :
    Refuses Error.OfKey (jwk.checkAlgorithm algorithm family).run.value := by
  rw [checkAlgorithm, value_run_bind]
  refine (jwk.requiredText_refuses "kty").bind fun keyType _ => ?_
  dsimp only
  by_cases hsupported : keyType ∈ ["oct", "RSA", "EC"]
  · rw [if_neg (not_not_intro hsupported)]
    by_cases hsame : keyType = family.keyType
    · rw [if_neg (not_not_intro hsame)]
      split
      · split <;> exact .ok _
      · exact .ok _
    · rw [if_pos hsame]
      exact .error rfl
  · rw [if_pos hsupported]
    exact .error rfl

/-- A curve is refused for its name, unless the algorithm has none at all. -/
theorem curve_refuses (hash : Hash) : Refuses Error.OfKey (jwk.curve (.signing .ecdsa hash)) := by
  refine (jwk.requiredText_refuses "crv").bind fun name _ => ?_
  have hname : Refuses Error.OfKey (Curve.ofName name) := by
    rw [Curve.ofName]
    split
    · exact .ok _
    · exact .error rfl
  refine hname.bind fun found _ => ?_
  simp only [Algorithm.curve?]
  split
  · exact .ok _
  · exact .error rfl

theorem primes_refuses : Refuses Error.OfKey jwk.primes.run.value := by
  simp only [primes, value_run_bind, value_run_lift]
  refine (jwk.octets?_refuses "p").bind fun p _ => (jwk.octets?_refuses "q").bind fun q _ => ?_
  cases p <;> cases q <;> exact .ok _

theorem crt_refuses : Refuses Error.OfKey jwk.crt.run.value := by
  simp only [crt, value_run_bind, value_run_lift]
  refine (jwk.octets?_refuses "dp").bind fun exponentP _ => ?_
  refine (jwk.octets?_refuses "dq").bind fun exponentQ _ => ?_
  refine (jwk.octets?_refuses "qi").bind fun coefficient _ => ?_
  cases exponentP <;> cases exponentQ <;> cases coefficient <;> exact .ok _

theorem rsaComponents_refuses : Refuses Error.OfKey jwk.rsaComponents.run.value := by
  simp only [rsaComponents, value_run_bind, value_run_lift]
  refine (jwk.octets_refuses "n").bind fun modulus _ => ?_
  refine (jwk.octets_refuses "e").bind fun exponent _ => ?_
  refine (jwk.octets_refuses "d").bind fun privateExponent _ => ?_
  refine jwk.primes_refuses.bind fun primes _ => jwk.crt_refuses.bind fun crt _ => ?_
  split <;> exact .ok _

theorem signingKeyOf_refuses {algorithm : Algorithm} {family : Family}
    (h : algorithm.family? = some family) :
    Refuses (Failure.Only Error.OfKey) (jwk.signingKeyOf algorithm family) := by
  obtain ⟨hash, rfl⟩ := Algorithm.exists_hash_of_family? h
  cases family with
  | symmetric => exact ((jwk.octets_refuses "k").bind fun secret _ => .ok _).ofExcept
  | rsa =>
      simp only [signingKeyOf, rsaPrivateKey, value_run_bind, value_run_attempt, value_run_lift]
      exact jwk.rsaComponents_refuses.ofExcept.bind fun components _ =>
        (Key.ofRsaPrivate_refuses components).mono fun _ => Error.OfNumbers.ofKey
  | ecdsa =>
      apply Refuses.ofExcept
      refine (jwk.curve_refuses hash).bind fun curve _ => ?_
      exact (jwk.octets_refuses "d").bind fun scalar _ =>
        (Key.ofEcdsaScalar_refuses curve scalar).weaken fun _ => Error.OfNumbers.ofKey

theorem verifyingKeyOf_refuses {algorithm : Algorithm} {family : Family}
    (h : algorithm.family? = some family) :
    Refuses Error.OfKey (jwk.verifyingKeyOf algorithm family) := by
  obtain ⟨hash, rfl⟩ := Algorithm.exists_hash_of_family? h
  cases family with
  | symmetric => exact (jwk.octets_refuses "k").bind fun secret _ => .ok _
  | rsa =>
      refine (jwk.octets_refuses "n").bind fun modulus _ => ?_
      exact (jwk.octets_refuses "e").bind fun exponent _ =>
        (Key.ofRsaPublic_refuses modulus exponent).weaken fun _ => Error.OfNumbers.ofKey
  | ecdsa =>
      refine (jwk.curve_refuses hash).bind fun curve _ => ?_
      refine (jwk.octets_refuses "x").bind fun x _ => ?_
      exact (jwk.octets_refuses "y").bind fun y _ =>
        (Key.ofEcdsaPoint_refuses curve x y).weaken fun _ => Error.OfNumbers.ofKey

end Jwk

section

variable {algorithm : Algorithm} {members : Members}

theorem fitting_refuses (purpose : Purpose) (hsigning : algorithm.isSigning = true) :
    Refuses Error.OfKey (Jwk.fitting purpose (.object members) algorithm).run.value := by
  cases algorithm with
  | none => cases hsigning
  | signing family hash =>
      simp only [Jwk.fitting, value_run_bind, value_run_lift]
      refine (Refuses.ok _).bind fun jwk _ => (Refuses.ok _).bind fun found _ => ?_
      exact (jwk.checkAlgorithm_refuses _ found).bind fun done _ => .ok _

/-- No object is refused as a description of a key for anything but what it holds. -/
theorem signingKey_refuses (hsigning : algorithm.isSigning = true) :
    Refuses (Failure.Only Error.OfKey) (signingKey (.object members) algorithm).run.value := by
  simp only [signingKey, value_run_bind, value_run_attempt]
  refine (fitting_refuses .signing hsigning).ofExcept.bind ?_
  rintro ⟨jwk, family⟩ hfitting
  obtain ⟨_, hfamily, _⟩ := (Jwk.fitting_eq_ok_iff _ _ _ _ _).mp ((ofExcept_eq_ok_iff _ _).mp hfitting)
  have hkey := jwk.signingKeyOf_refuses hfamily
  cases family <;> exact hkey

theorem verifyingKey_refuses (hsigning : algorithm.isSigning = true) :
    Refuses Error.OfKey (verifyingKey (.object members) algorithm).run.value := by
  simp only [verifyingKey, value_run_bind]
  refine (fitting_refuses .verification hsigning).bind ?_
  rintro ⟨jwk, family⟩ hfitting
  obtain ⟨_, hfamily, _⟩ := (Jwk.fitting_eq_ok_iff _ _ _ _ _).mp hfitting
  have hkey := jwk.verifyingKeyOf_refuses hfamily
  cases family <;> exact hkey

end

/-! ### Keys -/

namespace Algorithm

variable {algorithm : Algorithm} {document : Json} {key : Key}

/-- The length of what an algorithm signs with a key of its own. -/
def signatureLength : Algorithm → Key → Nat
  | signing .symmetric hash, _ => hash.length
  | signing .rsa _, .rsa key => key.publicHalf.size
  | signing .ecdsa hash, _ => 2 * (curveFor hash).fieldSize
  | _, _ => 0

/-- A document gives a key of the algorithm's family: a secret, a checked private key, or a scalar of
the algorithm's curve. -/
theorem signingKey_cases (h : (signingKey document algorithm).run.value = .ok key) :
    (∃ hash secret, algorithm = signing .symmetric hash ∧ key = .symmetric secret) ∨
    (∃ hash pair, algorithm = signing .rsa hash ∧ key = .rsa (.privateKey pair) ∧ pair.Sound) ∨
    ∃ hash scalar, algorithm = signing .ecdsa hash ∧
      key = .ecdsa (.signing ⟨curveFor hash, scalar⟩) := by
  obtain ⟨jwk, family, _, hfamily, _, hmembers⟩ := (signingKey_eq_ok_iff _ _ _).mp h
  obtain ⟨hash, rfl⟩ := exists_hash_of_family? hfamily
  cases family with
  | symmetric =>
      obtain ⟨secret, _, hkey⟩ := bind_eq_ok_iff.mp ((ofExcept_eq_ok_iff _ _).mp hmembers)
      cases hkey
      exact Or.inl ⟨hash, secret, rfl, rfl⟩
  | rsa =>
      obtain ⟨pair, rfl, hsound, _⟩ := Jwk.rsaPublicKey_of_rsaPrivateKey hmembers
      exact Or.inr (Or.inl ⟨hash, pair, rfl, rfl, hsound⟩)
  | ecdsa =>
      obtain ⟨curve, hcurve, hscalar⟩ := bind_eq_ok_iff.mp ((ofExcept_eq_ok_iff _ _).mp hmembers)
      obtain ⟨_, _, _, rfl⟩ := (Jwk.curve_eq_ok_iff _ _ _).mp hcurve
      obtain ⟨octets, _, hkey⟩ := bind_eq_ok_iff.mp hscalar
      obtain ⟨scalar, _, _, rfl⟩ := Key.eq_of_ofEcdsaScalar hkey
      exact Or.inr (Or.inr ⟨hash, scalar, rfl, rfl⟩)

/-- For verification too: a secret, a public key, or a point of the algorithm's curve. -/
theorem verifyingKey_cases (h : (verifyingKey document algorithm).run.value = .ok key) :
    (∃ hash secret, algorithm = signing .symmetric hash ∧ key = .symmetric secret) ∨
    (∃ hash half, algorithm = signing .rsa hash ∧ key = .rsa (.publicKey half)) ∨
    ∃ hash x y, algorithm = signing .ecdsa hash ∧
      key = .ecdsa (.verifying ⟨curveFor hash, x, y⟩) := by
  obtain ⟨jwk, family, _, hfamily, _, hmembers⟩ := (verifyingKey_eq_ok_iff _ _ _).mp h
  obtain ⟨hash, rfl⟩ := exists_hash_of_family? hfamily
  cases family with
  | symmetric =>
      obtain ⟨secret, _, hkey⟩ := bind_eq_ok_iff.mp hmembers
      cases hkey
      exact Or.inl ⟨hash, secret, rfl, rfl⟩
  | rsa =>
      obtain ⟨modulus, _, hexponent⟩ := bind_eq_ok_iff.mp hmembers
      obtain ⟨exponent, _, hkey⟩ := bind_eq_ok_iff.mp hexponent
      rw [Key.ofRsaPublic] at hkey
      split at hkey
      · cases hkey
        exact Or.inr (Or.inl ⟨hash, _, rfl, rfl⟩)
      · cases hkey
  | ecdsa =>
      obtain ⟨curve, hcurve, hpoint⟩ := bind_eq_ok_iff.mp hmembers
      obtain ⟨_, _, _, rfl⟩ := (Jwk.curve_eq_ok_iff _ _ _).mp hcurve
      obtain ⟨xOctets, _, hpoint⟩ := bind_eq_ok_iff.mp hpoint
      obtain ⟨yOctets, _, hkey⟩ := bind_eq_ok_iff.mp hpoint
      obtain ⟨x, _, hkey⟩ := bind_eq_ok_iff.mp hkey
      obtain ⟨y, _, hkey⟩ := bind_eq_ok_iff.mp hkey
      split at hkey
      · cases hkey
        exact Or.inr (Or.inr ⟨hash, x, y, rfl, rfl⟩)
      · cases hkey

theorem sign_privateKey (hash : Hash) (pair : Rsa.PrivateKey) (input : Octets) :
    (Scheme.rsa algorithm hash).sign (.rsa (.privateKey pair)) input =
      match pair.sign hash input with
      | .ok signature => BoundedOctets.ofOctets signature
      | .error fault => .error (.signingFailed (.rsa fault)) := rfl

theorem exists_bounded {capacity : Nat} {octets : Octets} (h : octets.length ≤ capacity) :
    ∃ bounded : BoundedOctets capacity,
      BoundedOctets.ofOctets octets = .ok bounded ∧ bounded.length = octets.length :=
  ⟨⟨octets, h⟩, dif_pos h, rfl⟩

/-- A key that a document gives signs at the length of its kind, or fails in the operation itself, as
keyed hashing never does. -/
theorem sign_of_signingKey (h : (signingKey document algorithm).run.value = .ok key)
    (input : Octets) :
    (∃ signature, (algorithm.sign key input).run.value = .ok signature ∧
      signature.length = algorithm.signatureLength key) ∨
    algorithm.isSymmetric = false ∧
      ∃ fault, (algorithm.sign key input).run.value = .error (.signingFailed fault) := by
  obtain ⟨hash, secret, rfl, rfl⟩ | ⟨hash, pair, rfl, rfl, hsound⟩ | ⟨hash, scalar, rfl, rfl⟩ :=
    signingKey_cases h
  · have hlength : (hash.hmac secret input).length ≤ 2048 := by
      rw [Hash.length_hmac]
      cases hash <;> decide
    obtain ⟨signature, hbounded, hsame⟩ := exists_bounded hlength
    refine Or.inl ⟨signature, ?_, hsame.trans (hash.length_hmac secret input)⟩
    rw [run_sign rfl]
    exact hbounded
  · rw [run_sign rfl, sign_privateKey]
    cases hsign : pair.sign hash input with
    | error fault => exact Or.inr ⟨rfl, .rsa fault, rfl⟩
    | ok octets =>
        obtain ⟨signature, hbounded, hsame⟩ := exists_bounded (length_le_of_sign hsound hsign)
        exact Or.inl ⟨signature, hbounded, hsame.trans (Rsa.length_of_sign hsign).1⟩
  · rw [run_sign rfl, Scheme.sign_scalar, Scheme.checkCurve, if_pos rfl]
    cases hsign : (Ecdsa.SigningKey.mk (curveFor hash) scalar).sign (hash.digest input) with
    | none => exact Or.inr ⟨rfl, .ecdsa, rfl⟩
    | some octets =>
        obtain ⟨signature, hbounded⟩ := Ecdsa.ofOctets_of_sign hsign
        refine Or.inl ⟨signature, hbounded, ?_⟩
        rw [BoundedOctets.length, ← (BoundedOctets.ofOctets_eq_ok_iff _ _).mp hbounded]
        exact Ecdsa.length_of_sign hsign

theorem accept_cases (valid : Bool) :
    Scheme.accept valid = .ok () ∨ Scheme.accept valid = .error .signatureInvalid := by
  cases valid with
  | true => exact Or.inl rfl
  | false => exact Or.inr rfl

/-- With a key that a document gives a signature is accepted, or found invalid. -/
theorem check_of_verifyingKey (h : (verifyingKey document algorithm).run.value = .ok key)
    (input signature : Octets) :
    algorithm.check key input signature = .ok () ∨
      algorithm.check key input signature = .error .signatureInvalid := by
  obtain ⟨hash, secret, rfl, rfl⟩ | ⟨hash, half, rfl, rfl⟩ | ⟨hash, x, y, rfl, rfl⟩ :=
    verifyingKey_cases h
  · exact accept_cases (signature == hash.hmac secret input)
  · exact accept_cases (half.verifies hash input signature)
  · have hcurve : (Ecdsa.Key.verifying ⟨curveFor hash, x, y⟩).curve = curveFor hash := rfl
    rw [check_ecdsa, Scheme.verify_ecdsa, Scheme.checkCurve, if_pos hcurve]
    exact accept_cases _

end Algorithm

/-! ### Tokens -/

namespace Token

variable {algorithm : Algorithm}

/-- A signature that is computed for a document is not refused for its arguments. -/
theorem computeSignature_refuses (token : Token) (hsigning : algorithm.isSigning = true)
    (members : Members) :
    Refuses (Failure.Only fun cause => cause.category ≠ .invalidArgument)
      (token.computeSignature algorithm (.object members)).run.value := by
  rw [value_computeSignature]
  refine ((signingKey_refuses hsigning).mono fun cause hcause => ?_).bind fun key hkey => ?_
  · rw [hcause]
    decide
  · apply Refuses.ofExcept
    intro cause hcause
    obtain ⟨signature, hsign, _⟩ | ⟨_, fault, hsign⟩ :=
      Algorithm.sign_of_signingKey hkey token.signingInput
    · rw [hsign] at hcause
      cases hcause
    · rw [hsign] at hcause
      cases hcause
      exact fun hcategory => by cases hcategory

/-- Signing refuses its arguments if there is no algorithm or no document, and only then. -/
theorem sign_invalidArgument_iff (token : Token) (algorithm : Algorithm) (document : Json) :
    (∃ cause, (token.sign algorithm document).value.2 = .error (.error cause) ∧
      cause.category = .invalidArgument) ↔
    algorithm = .none ∨ document.asObject? = none := by
  cases algorithm with
  | none => exact iff_of_true ⟨.noneCannotSign, rfl, rfl⟩ (Or.inl rfl)
  | signing family hash =>
      cases document with
      | object members =>
          refine iff_of_false ?_ (by rintro (⟨⟨⟩⟩ | ⟨⟨⟩⟩))
          rintro ⟨cause, hvalue, hcategory⟩
          obtain ⟨hrefused, _⟩ | ⟨_, _, ⟨failure, hcomputed, hsigned⟩ | ⟨_, _, hsigned⟩⟩ :=
            token.sign_cases (.signing family hash) (.object members)
          · rcases hrefused with hrefused | hrefused <;> cases hrefused
          · rw [hsigned] at hvalue
            cases hvalue
            exact computeSignature_refuses _ rfl members _ hcomputed hcategory
          · rw [hsigned] at hvalue
            cases hvalue
      | _ => exact iff_of_true ⟨.keyDocumentMissing, rfl, rfl⟩ (Or.inr rfl)

end Token

/-- What is refused, and for what: a document for what it holds; a signature, by a key that a document
gave, for a failure of the operation alone, and with a secret never; a signature that is checked, for
being invalid; and only a missing algorithm or a missing document as an argument of signing. Otherwise
a signature has the length of the digest, of the modulus, or of two field elements. -/
theorem refusals_of_document (algorithm : Algorithm) (document : Json) :
    (algorithm ≠ .none → document.asObject? ≠ none →
      (∀ cause, (signingKey document algorithm).run.value = .error (.error cause) →
        cause.category = .keyMaterial) ∧
      ∀ cause, (verifyingKey document algorithm).run.value = .error cause →
        cause.category = .keyMaterial) ∧
    (∀ key input, (signingKey document algorithm).run.value = .ok key →
      (∃ signature, (algorithm.sign key input).run.value = .ok signature ∧
        signature.length = algorithm.signatureLength key) ∨
      algorithm.isSymmetric = false ∧
        ∃ fault, (algorithm.sign key input).run.value = .error (.signingFailed fault)) ∧
    (∀ key input signature, (verifyingKey document algorithm).run.value = .ok key →
      algorithm.check key input signature = .ok () ∨
        algorithm.check key input signature = .error .signatureInvalid) ∧
    ∀ token : Token,
      (∃ cause, (token.sign algorithm document).value.2 = .error (.error cause) ∧
        cause.category = .invalidArgument) ↔
      algorithm = .none ∨ document.asObject? = none := by
  refine ⟨fun hsigning hobject => ?_, fun key input hkey => Algorithm.sign_of_signingKey hkey input,
    fun key input signature hkey => Algorithm.check_of_verifyingKey hkey input signature,
    fun token => token.sign_invalidArgument_iff algorithm document⟩
  have hsigning : algorithm.isSigning = true := by
    cases algorithm with
    | none => exact absurd rfl hsigning
    | signing family hash => rfl
  cases document with
  | object members =>
      exact ⟨fun cause h => signingKey_refuses hsigning _ h,
        fun cause h => verifyingKey_refuses hsigning _ h⟩
  | _ => exact absurd rfl hobject

/-- The secret `secret`, and a modulus of one octet, which is too short for the padding of a digest. -/
theorem refusals_of_short_modulus :
    ∃ secret modulus : Json,
      secret = .object [("kty", .string "oct"), ("k", .string "c2VjcmV0")] ∧
      modulus = .object [("kty", .string "RSA"), ("n", .string "Dw"), ("e", .string "Aw"),
        ("d", .string "Aw"), ("p", .string "Aw"), ("q", .string "BQ")] ∧
      (∃ cause, (signingKey secret (.signing .rsa .sha256)).run.value = .error (.error cause) ∧
        cause.category = .keyMaterial) ∧
      (∃ key signature, (signingKey secret (.signing .symmetric .sha256)).run.value = .ok key ∧
        ((Algorithm.signing .symmetric .sha256).sign key []).run.value = .ok signature ∧
        signature.length = 32) ∧
      (∃ key fault, (signingKey modulus (.signing .rsa .sha256)).run.value = .ok key ∧
        ((Algorithm.signing .rsa .sha256).sign key []).run.value = .error (.signingFailed fault)) ∧
      (∃ key, (verifyingKey modulus (.signing .rsa .sha256)).run.value = .ok key ∧
        (Algorithm.signing .rsa .sha256).check key [] [1] = .error .signatureInvalid) ∧
      ∃ cause, ((Token.new none).sign .none secret).value.2 = .error (.error cause) ∧
        cause.category = .invalidArgument := by
  let secret : Json := .object [("kty", .string "oct"), ("k", .string "c2VjcmV0")]
  let modulus : Json := .object [("kty", .string "RSA"), ("n", .string "Dw"), ("e", .string "Aw"),
    ("d", .string "Aw"), ("p", .string "Aw"), ("q", .string "BQ")]
  have hsome : secret.asObject? ≠ none := by rintro ⟨⟩
  obtain ⟨_, hsecretSign, _, _⟩ :=
    refusals_of_document (.signing .symmetric .sha256) secret
  obtain ⟨_, hmodulusSign, hmodulusCheck, _⟩ :=
    refusals_of_document (.signing .rsa .sha256) modulus
  refine ⟨secret, modulus, rfl, rfl, ?_, ?_, ?_, ?_, ?_⟩
  · obtain ⟨hwrong, _⟩ := (refusals_of_document (.signing .rsa .sha256) secret).1 (by decide) hsome
    have hkey : (signingKey secret (.signing .rsa .sha256)).run.value =
        .error (.error (.keyTypeMismatch "RS256" "RSA" "oct")) := rfl
    exact ⟨_, hkey, hwrong _ hkey⟩
  · have hkey : (signingKey secret (.signing .symmetric .sha256)).run.value =
        .ok (.symmetric (Octets.ofText "secret")) := by decide +kernel
    obtain ⟨signature, hsign, hlength⟩ | ⟨hfamily, _⟩ := hsecretSign _ [] hkey
    · exact ⟨_, signature, hkey, hsign, hlength⟩
    · cases hfamily
  · have hkey : (signingKey modulus (.signing .rsa .sha256)).run.value =
        .ok (.rsa (.privateKey ⟨⟨15, 3⟩, 3, ⟨3, 5, 1, 3, 2⟩⟩)) := by decide +kernel
    obtain ⟨signature, hsign, hlength⟩ | ⟨_, fault, hsign⟩ := hmodulusSign _ [] hkey
    · have hshort : ((Algorithm.signing .rsa .sha256).sign
          (.rsa (.privateKey ⟨⟨15, 3⟩, 3, ⟨3, 5, 1, 3, 2⟩⟩)) []).run.value.isOk = false := by
        decide +kernel
      rw [hsign] at hshort
      cases hshort
    · exact ⟨_, fault, hkey, hsign⟩
  · have hkey : (verifyingKey modulus (.signing .rsa .sha256)).run.value =
        .ok (.rsa (.publicKey ⟨15, 3⟩)) := by decide +kernel
    have hinvalid : (Algorithm.signing .rsa .sha256).check (.rsa (.publicKey ⟨15, 3⟩)) [] [1] ≠
        .ok () := by decide +kernel
    exact ⟨_, hkey, (hmodulusCheck _ [] [1] hkey).resolve_left hinvalid⟩
  · exact ((refusals_of_document .none secret).2.2.2 (Token.new none)).mpr (Or.inl rfl)

end WebToken
