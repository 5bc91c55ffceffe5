import WebToken.Proofs.Jwk
import WebToken.Token.Basic

/-! Which members of a document matter. A key is made of its key type and of the members that the
family of the algorithm needs for the purpose; whatever else the document holds, in whatever order,
is at most reported. -/

namespace WebToken

/-! ### Results that may differ in a warning -/

/-- Whether an event only tells that a document names another algorithm. -/
def Event.isAdvice : Event → Bool
  | .algorithmDisagrees .. => true
  | _ => false

namespace Logged

/-- Two operations have the same result and, advice apart, report the same events. -/
structure Alike {α : Type} (left right : Logged α) : Prop where
  value : left.value = right.value
  events : left.events.filter (!·.isAdvice) = right.events.filter (!·.isAdvice)

variable {α β : Type} {left right : Logged α}

theorem Alike.refl (logged : Logged α) : Alike logged logged := ⟨rfl, rfl⟩

/-- What goes on alike from the result of the first goes on alike from both. -/
theorem Alike.bind (h : Alike left right) {leftNext rightNext : α → Logged β}
    (hnext : Alike (leftNext left.value) (rightNext left.value)) :
    Alike (left >>= leftNext) (right >>= rightNext) := by
  rw [h.value] at hnext
  refine ⟨?_, ?_⟩
  · rw [value_bind, value_bind, h.value]
    exact hnext.value
  · rw [events_bind, events_bind, List.filter_append, List.filter_append, h.events, h.value,
      hnext.events]

theorem Alike.run_bind {ε : Type} {left right : ExceptT ε Logged α} (h : Alike left.run right.run)
    {leftNext rightNext : α → ExceptT ε Logged β}
    (hnext : ∀ value, left.run.value = .ok value →
      Alike (leftNext value).run (rightNext value).run) :
    Alike (left >>= leftNext).run (right >>= rightNext).run := by
  rw [ExceptT.run_bind, ExceptT.run_bind]
  refine h.bind ?_
  cases hvalue : left.run.value with
  | ok value => exact hnext value hvalue
  | error cause => exact Alike.refl _

theorem Alike.run_liftM {left right : Attempt α} (h : Alike left.run right.run) :
    Alike (liftM left : Action α).run (liftM right : Action α).run := by
  change Alike (left.run >>= fun result => pure (Outcome.ofExcept result))
    (right.run >>= fun result => pure (Outcome.ofExcept result))
  exact h.bind (Alike.refl _)

end Logged

/-! ### Keys -/

namespace Jwk

/-- The members that a key of a family is made of, its key type apart. -/
def consumed : Purpose → Family → List String
  | _, .symmetric => ["k"]
  | .verification, .rsa => ["n", "e"]
  | .signing, .rsa => ["n", "e", "d", "p", "q", "dp", "dq", "qi"]
  | .verification, .ecdsa => ["crv", "x", "y"]
  | .signing, .ecdsa => ["crv", "d"]

/-- Two documents have the same key type, or none. If it is that of the algorithm's family, they have
the same values, or none, for the members that a key of the family is made of. -/
structure Agree (purpose : Purpose) (algorithm : Algorithm) (left right : Members) : Prop where
  keyType : left.find? "kty" = right.find? "kty"
  member : ∀ family, algorithm.family? = some family →
    left.find? "kty" = some (.string family.keyType) →
      ∀ name ∈ consumed purpose family, left.find? name = right.find? name

/-- The family of the algorithm, if the document has its key type. -/
def family (jwk : Jwk) (purpose : Purpose) (algorithm : Algorithm) : Attempt Family := do
  let family ← familyOf algorithm
  jwk.checkAlgorithm algorithm family
  Attempt.report (.buildingKey purpose algorithm family)
  return family

/-- The key for signing that the members make, once the family is known. -/
def signing (jwk : Jwk) (algorithm : Algorithm) : Family → Action Key
  | .symmetric => jwk.symmetricKey
  | .rsa => jwk.rsaPrivateKey
  | .ecdsa => jwk.ecdsaSigningKey algorithm

/-- The key for verification that the members make, once the family is known. -/
def verifying (jwk : Jwk) (algorithm : Algorithm) : Family → Attempt Key
  | .symmetric => jwk.symmetricKey
  | .rsa => jwk.rsaPublicKey
  | .ecdsa => jwk.ecdsaVerifyingKey algorithm

theorem fitting_object (purpose : Purpose) (members : Members) (algorithm : Algorithm) :
    fitting purpose (.object members) algorithm =
      (Prod.mk ⟨members⟩) <$> (mk members).family purpose algorithm := by
  simp only [fitting, family, map_bind, map_pure]
  rfl

end Jwk

/-- Lifting an attempt commutes with a function on its result. -/
theorem liftM_map {α β : Type} (next : α → β) (attempt : Attempt α) :
    (liftM (next <$> attempt) : Action β) = next <$> (liftM attempt : Action α) := by
  apply ExceptT.ext
  change Outcome.ofExcept <$> (next <$> attempt).run =
    (next <$> ExceptT.mk (Outcome.ofExcept <$> attempt.run)).run
  rw [ExceptT.run_map, ExceptT.run_map, ExceptT.run_mk, Functor.map_map, Functor.map_map]
  congr 1
  funext result
  cases result <;> rfl

theorem signingKey_object (members : Members) (algorithm : Algorithm) :
    signingKey (.object members) algorithm = (do
      let family ← (Jwk.mk members).family .signing algorithm
      (Jwk.mk members).signing algorithm family : Action Key) := by
  rw [signingKey, Jwk.fitting_object, liftM_map, bind_map_left]
  congr 1

theorem verifyingKey_object (members : Members) (algorithm : Algorithm) :
    verifyingKey (.object members) algorithm = (do
      let family ← (Jwk.mk members).family .verification algorithm
      (Jwk.mk members).verifying algorithm family) := by
  rw [verifyingKey, Jwk.fitting_object, bind_map_left]
  congr 1

namespace Jwk

variable {left right : Jwk}

theorem requiredText_congr {name : String}
    (h : left.members.find? name = right.members.find? name) :
    left.requiredText name = right.requiredText name := by
  rw [requiredText, requiredText, h]

theorem octets?_congr {name : String} (h : left.members.find? name = right.members.find? name) :
    left.octets? name = right.octets? name := by
  rw [octets?, octets?, h]

theorem octets_congr {name : String} (h : left.members.find? name = right.members.find? name) :
    left.octets name = right.octets name := by
  rw [octets, octets, octets?_congr h]

/-- Tells that a document names another algorithm. -/
def advise (algorithm : Algorithm) : Option String → Attempt Unit
  | some named =>
      if named ≠ algorithm.name then Attempt.report (.algorithmDisagrees named algorithm)
      else return
  | none => return

theorem advise_alike (algorithm : Algorithm) (left right : Option String) :
    Logged.Alike (advise algorithm left).run (advise algorithm right).run := by
  have hquiet : ∀ named : Option String, (advise algorithm named).run.value = .ok () ∧
      (advise algorithm named).run.events.filter (!·.isAdvice) = [] := by
    intro named
    cases named with
    | none => exact ⟨rfl, rfl⟩
    | some named =>
        rw [advise]
        split <;> exact ⟨rfl, rfl⟩
  exact ⟨(hquiet left).1.trans (hquiet right).1.symm, (hquiet left).2.trans (hquiet right).2.symm⟩

/-- That a document names an algorithm is at most reported. -/
theorem checkAlgorithm_alike (hkeyType : left.members.find? "kty" = right.members.find? "kty")
    (algorithm : Algorithm) (family : Family) :
    Logged.Alike (left.checkAlgorithm algorithm family).run
      (right.checkAlgorithm algorithm family).run := by
  rw [checkAlgorithm, checkAlgorithm, requiredText_congr hkeyType]
  refine (Logged.Alike.refl _).run_bind fun keyType _ => ?_
  dsimp only
  by_cases hsupported : keyType ∈ ["oct", "RSA", "EC"]
  · rw [if_neg (not_not_intro hsupported), if_neg (not_not_intro hsupported)]
    by_cases hsame : keyType = family.keyType
    · rw [if_neg (not_not_intro hsame), if_neg (not_not_intro hsame)]
      exact advise_alike algorithm _ _
    · rw [if_pos hsame, if_pos hsame]
      exact (Logged.Alike.refl _).run_bind fun _ hthrown => by cases hthrown
  · rw [if_pos hsupported, if_pos hsupported]
    exact (Logged.Alike.refl _).run_bind fun _ hthrown => by cases hthrown

theorem family_alike (hkeyType : left.members.find? "kty" = right.members.find? "kty")
    (purpose : Purpose) (algorithm : Algorithm) :
    Logged.Alike (left.family purpose algorithm).run (right.family purpose algorithm).run := by
  refine (Logged.Alike.refl _).run_bind fun family _ => ?_
  refine (checkAlgorithm_alike hkeyType algorithm family).run_bind fun _ _ => ?_
  exact Logged.Alike.refl _

theorem family_eq_ok {jwk : Jwk} {purpose : Purpose} {algorithm : Algorithm} {family : Family}
    (h : (jwk.family purpose algorithm).run.value = .ok family) :
    algorithm.family? = some family ∧
      jwk.members.find? "kty" = some (.string family.keyType) := by
  simp only [Jwk.family, value_run_bind, value_run_lift, bind_eq_ok_iff, familyOf_eq_ok_iff,
    checkAlgorithm_eq_ok_iff, value_run_report, value_run_pure] at h
  obtain ⟨found, hfound, _, hkeyType, _, _, h⟩ := h
  cases h
  exact ⟨hfound, hkeyType⟩

section

variable {family : Family}

theorem signing_congr (algorithm : Algorithm)
    (h : ∀ name ∈ consumed .signing family, left.members.find? name = right.members.find? name) :
    left.signing algorithm family = right.signing algorithm family := by
  cases family with
  | symmetric => simp only [signing, symmetricKey, octets_congr (h "k" (by decide))]
  | rsa =>
      simp only [signing, rsaPrivateKey, rsaComponents, primes, crt,
        octets_congr (h "n" (by decide)), octets_congr (h "e" (by decide)),
        octets_congr (h "d" (by decide)), octets?_congr (h "p" (by decide)),
        octets?_congr (h "q" (by decide)), octets?_congr (h "dp" (by decide)),
        octets?_congr (h "dq" (by decide)), octets?_congr (h "qi" (by decide))]
  | ecdsa =>
      simp only [signing, ecdsaSigningKey, Jwk.curve, requiredText_congr (h "crv" (by decide)),
        octets_congr (h "d" (by decide))]

theorem verifying_congr (algorithm : Algorithm)
    (h : ∀ name ∈ consumed .verification family,
      left.members.find? name = right.members.find? name) :
    left.verifying algorithm family = right.verifying algorithm family := by
  cases family with
  | symmetric => simp only [verifying, symmetricKey, octets_congr (h "k" (by decide))]
  | rsa =>
      simp only [verifying, rsaPublicKey, octets_congr (h "n" (by decide)),
        octets_congr (h "e" (by decide))]
  | ecdsa =>
      simp only [verifying, ecdsaVerifyingKey, Jwk.curve,
        requiredText_congr (h "crv" (by decide)), octets_congr (h "x" (by decide)),
        octets_congr (h "y" (by decide))]

end

end Jwk

section

variable {algorithm : Algorithm} {left right : Members}

theorem signingKey_alike (h : Jwk.Agree .signing algorithm left right) :
    Logged.Alike (signingKey (.object left) algorithm).run
      (signingKey (.object right) algorithm).run := by
  rw [signingKey_object, signingKey_object]
  refine (Jwk.family_alike h.keyType _ _).run_liftM.run_bind fun family hfamily => ?_
  rw [value_run_attempt, ofExcept_eq_ok_iff] at hfamily
  obtain ⟨hfound, hkeyType⟩ := Jwk.family_eq_ok hfamily
  rw [Jwk.signing_congr algorithm (h.member family hfound hkeyType)]
  exact Logged.Alike.refl _

theorem verifyingKey_alike (h : Jwk.Agree .verification algorithm left right) :
    Logged.Alike (verifyingKey (.object left) algorithm).run
      (verifyingKey (.object right) algorithm).run := by
  rw [verifyingKey_object, verifyingKey_object]
  refine (Jwk.family_alike h.keyType _ _).run_bind fun family hfamily => ?_
  obtain ⟨hfound, hkeyType⟩ := Jwk.family_eq_ok hfamily
  rw [Jwk.verifying_congr algorithm (h.member family hfound hkeyType)]
  exact Logged.Alike.refl _

/-! ### Tokens -/

namespace Token

theorem sign_alike (h : Jwk.Agree .signing algorithm left right) (token : Token) :
    Logged.Alike (token.sign algorithm (.object left)) (token.sign algorithm (.object right)) := by
  have hcomputed : ∀ ready : Token, Logged.Alike
      (ready.computeSignature algorithm (.object left)).run
      (ready.computeSignature algorithm (.object right)).run := by
    intro ready
    rw [computeSignature, computeSignature]
    have hkey : Logged.Alike (ExceptT.lift (signingKey (.object left) algorithm).run : Action _).run
        (ExceptT.lift (signingKey (.object right) algorithm).run : Action _).run := by
      change Logged.Alike (_ >>= fun result => pure (Except.ok result))
        (_ >>= fun result => pure (Except.ok result))
      exact (signingKey_alike h).bind (Logged.Alike.refl _)
    exact hkey.run_bind fun _ _ => Logged.Alike.refl _
  rw [sign, sign]
  cases algorithm.isSigning with
  | false => exact Logged.Alike.refl _
  | true => exact (hcomputed _).bind (Logged.Alike.refl _)

theorem hasValidSignature_alike {token : Token}
    (h : Jwk.Agree .verification token.algorithm left right) :
    Logged.Alike (token.hasValidSignature (.object left))
      (token.hasValidSignature (.object right)) := by
  rw [hasValidSignature, hasValidSignature]
  split
  · exact Logged.Alike.refl _
  · exact (verifyingKey_alike h).bind (Logged.Alike.refl _)

end Token

end

/-- Documents that agree on the key type and on what the family of the algorithm needs for signing
give the same key or the same refusal, and sign in the same way; for verification likewise. Their other
members, and the order of all, can only make a warning appear that another algorithm is named. -/
theorem alike_of_agree (algorithm : Algorithm) (left right : Members) :
    (Jwk.Agree .signing algorithm left right →
      Logged.Alike (signingKey (.object left) algorithm).run
          (signingKey (.object right) algorithm).run ∧
        ∀ token : Token, Logged.Alike (token.sign algorithm (.object left))
          (token.sign algorithm (.object right))) ∧
    (Jwk.Agree .verification algorithm left right →
      Logged.Alike (verifyingKey (.object left) algorithm).run
          (verifyingKey (.object right) algorithm).run ∧
        ∀ token : Token, token.algorithm = algorithm →
          Logged.Alike (token.hasValidSignature (.object left))
            (token.hasValidSignature (.object right))) := by
  refine ⟨fun h => ⟨signingKey_alike h, Token.sign_alike h⟩, fun h => ⟨verifyingKey_alike h, ?_⟩⟩
  rintro token rfl
  exact Token.hasValidSignature_alike h

/-- A scalar beside a point and an algorithm that are none, and a modulus beside a private exponent
that is none. -/
theorem alike_of_spoilt_members :
    ∃ scalar spoiltScalar modulus spoiltModulus : Members,
      scalar = [("kty", .string "EC"), ("crv", .string "P-256"), ("d", .string "AQ")] ∧
      spoiltScalar = [("x", .null), ("d", .string "AQ"), ("alg", .string "RS256"),
        ("crv", .string "P-256"), ("y", .string "!"), ("kty", .string "EC")] ∧
      modulus = [("kty", .string "RSA"), ("n", .string "Dw"), ("e", .string "Aw")] ∧
      spoiltModulus = [("e", .string "Aw"), ("d", .null), ("kty", .string "RSA"),
        ("alg", .string "HS256"), ("n", .string "Dw")] ∧
      Jwk.Agree .signing (.signing .ecdsa .sha256) scalar spoiltScalar ∧
      Jwk.Agree .verification (.signing .rsa .sha256) modulus spoiltModulus ∧
      (signingKey (.object spoiltScalar) (.signing .ecdsa .sha256)).run.value =
        .ok (.ecdsa (.signing ⟨.p256, 1⟩)) ∧
      (∀ token : Token, (token.sign (.signing .ecdsa .sha256) (.object scalar)).value =
        (token.sign (.signing .ecdsa .sha256) (.object spoiltScalar)).value) ∧
      (verifyingKey (.object spoiltModulus) (.signing .rsa .sha256)).run.value =
        .ok (.rsa (.publicKey ⟨15, 3⟩)) ∧
      ∀ token : Token, token.algorithm = .signing .rsa .sha256 →
        (token.hasValidSignature (.object modulus)).value =
          (token.hasValidSignature (.object spoiltModulus)).value := by
  have hscalar : Jwk.Agree .signing (.signing .ecdsa .sha256)
      [("kty", .string "EC"), ("crv", .string "P-256"), ("d", .string "AQ")]
      [("x", .null), ("d", .string "AQ"), ("alg", .string "RS256"), ("crv", .string "P-256"),
        ("y", .string "!"), ("kty", .string "EC")] := by
    refine ⟨rfl, fun family hfamily _ name hname => ?_⟩
    cases hfamily
    simp only [Jwk.consumed, List.mem_cons, List.not_mem_nil, or_false] at hname
    rcases hname with rfl | rfl <;> rfl
  have hmodulus : Jwk.Agree .verification (.signing .rsa .sha256)
      [("kty", .string "RSA"), ("n", .string "Dw"), ("e", .string "Aw")]
      [("e", .string "Aw"), ("d", .null), ("kty", .string "RSA"), ("alg", .string "HS256"),
        ("n", .string "Dw")] := by
    refine ⟨rfl, fun family hfamily _ name hname => ?_⟩
    cases hfamily
    simp only [Jwk.consumed, List.mem_cons, List.not_mem_nil, or_false] at hname
    rcases hname with rfl | rfl <;> rfl
  obtain ⟨hsigningKey, hsign⟩ := (alike_of_agree _ _ _).1 hscalar
  obtain ⟨hverifyingKey, hvalid⟩ := (alike_of_agree _ _ _).2 hmodulus
  refine ⟨_, _, _, _, rfl, rfl, rfl, rfl, hscalar, hmodulus, ?_, fun token => (hsign token).value, ?_,
    fun token htoken => (hvalid token htoken).value⟩
  · rw [← hsigningKey.value]
    rfl
  · rw [← hverifyingKey.value]
    rfl

end WebToken
