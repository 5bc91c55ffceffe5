import WebToken.Proofs.Token.BreakingOff
import WebToken.Proofs.Token.Consistent
import WebToken.Proofs.Token.Reports

/-! What the log tells of how signing and checking a signature ended. Building a key never tells it; what
comes after a key is built, or is not, tells it once. Only what breaks off is told by nothing. -/

namespace WebToken

/-- The events that tell how an operation ended. -/
def debugEvents (events : List Event) : List Event :=
  events.filter (·.level = .debug)

theorem debugEvents_append (events more : List Event) :
    debugEvents (events ++ more) = debugEvents events ++ debugEvents more :=
  List.filter_append ..

/-! ### Quiet operations -/

/-- The operation leaves it to others to tell how it ended. -/
def Quiet {ε α : Type} (action : ExceptT ε Logged α) : Prop :=
  debugEvents action.run.events = []

namespace Quiet

variable {ε α β : Type}

theorem pure (value : α) : Quiet (Pure.pure value : ExceptT ε Logged α) := rfl

theorem lift (result : Except ε α) : Quiet (liftM result : ExceptT ε Logged α) := rfl

theorem report {event : Event} (hlevel : event.level ≠ .debug) : Quiet (Attempt.report event) := by
  have hevents : (Attempt.report event).run.events = [event] := rfl
  rw [Quiet, hevents, debugEvents, List.filter_cons_of_neg (by rwa [decide_eq_true_eq])]
  rfl

theorem bind {first : ExceptT ε Logged α} {next : α → ExceptT ε Logged β} (hfirst : Quiet first)
    (hnext : ∀ value, Quiet (next value)) : Quiet (first >>= next) := by
  rw [Quiet, ExceptT.run_bind, Logged.events_bind, debugEvents_append, hfirst, List.nil_append]
  cases first.run.value with
  | ok value => exact hnext value
  | error cause => rfl

/-- Nothing comes after a refusal. -/
theorem throw_bind (cause : ε) (next : α → ExceptT ε Logged β) :
    Quiet (throw cause >>= next) := rfl

theorem attempt {attempt : Attempt α} (h : Quiet attempt) : Quiet (liftM attempt : Action α) := by
  have hevents : (liftM attempt : Action α).run.events = attempt.run.events ++ [] := rfl
  rw [Quiet, hevents, List.append_nil]
  exact h

end Quiet

namespace Jwk

variable (jwk : Jwk) (algorithm : Algorithm)

theorem checkAlgorithm_quiet (family : Family) : Quiet (jwk.checkAlgorithm algorithm family) := by
  rw [checkAlgorithm]
  refine (Quiet.lift _).bind fun keyType => ?_
  by_cases hsupported : keyType ∈ ["oct", "RSA", "EC"]
  · rw [if_neg (not_not_intro hsupported)]
    by_cases hsame : keyType = family.keyType
    · rw [if_neg (not_not_intro hsame)]
      split
      · rename_i named _
        change Quiet (if named ≠ algorithm.name then
          Attempt.report (.algorithmDisagrees named algorithm) else pure ())
        split
        · exact .report (by rintro ⟨⟩)
        · exact .pure _
      · exact .pure _
    · rw [if_pos hsame]
      exact .throw_bind _ _
  · rw [if_pos hsupported]
    exact .throw_bind _ _

theorem primes_quiet : Quiet jwk.primes := by
  refine (Quiet.lift _).bind fun p => (Quiet.lift _).bind fun q => ?_
  split
  · exact .pure _
  · exact .pure _
  · exact (Quiet.report (by decide)).bind fun _ => .pure _

theorem crt_quiet : Quiet jwk.crt := by
  refine (Quiet.lift _).bind fun exponentP => (Quiet.lift _).bind fun exponentQ => ?_
  refine (Quiet.lift _).bind fun coefficient => ?_
  split
  · exact .pure _
  · exact .pure _
  · exact (Quiet.report (by decide)).bind fun _ => .pure _

theorem rsaComponents_quiet : Quiet jwk.rsaComponents := by
  refine (Quiet.lift _).bind fun modulus => (Quiet.lift _).bind fun exponent => ?_
  refine (Quiet.lift _).bind fun privateExponent => jwk.primes_quiet.bind fun primes => ?_
  refine jwk.crt_quiet.bind fun crt => ?_
  dsimp only
  by_cases hunused : crt.isSome ∧ primes.isNone
  · rw [if_pos hunused]
    exact (Quiet.report (by decide)).bind fun _ => .pure _
  · rw [if_neg hunused]
    exact .pure _

theorem fitting_quiet (purpose : Purpose) (document : Json) :
    Quiet (fitting purpose document algorithm) := by
  refine (Quiet.lift _).bind fun jwk => (Quiet.lift _).bind fun family => ?_
  refine (jwk.checkAlgorithm_quiet algorithm family).bind fun _ => ?_
  exact (Quiet.report (by rintro ⟨⟩)).bind fun _ => .pure _

end Jwk

theorem signingKey_quiet (document : Json) (algorithm : Algorithm) :
    Quiet (signingKey document algorithm) := by
  refine (Jwk.fitting_quiet algorithm .signing document).attempt.bind ?_
  rintro ⟨jwk, family⟩
  cases family with
  | symmetric => exact (Quiet.lift _).attempt
  | rsa => exact jwk.rsaComponents_quiet.attempt.bind fun components => .lift _
  | ecdsa => exact (Quiet.lift _).attempt

theorem verifyingKey_quiet (document : Json) (algorithm : Algorithm) :
    Quiet (verifyingKey document algorithm) := by
  refine (Jwk.fitting_quiet algorithm .verification document).bind ?_
  rintro ⟨jwk, family⟩
  cases family with
  | symmetric => exact .lift _
  | rsa => exact .lift _
  | ecdsa => exact .lift _

/-! ### Signing -/

theorem Scheme.exists_of_isSigning {algorithm : Algorithm} (h : algorithm.isSigning = true) :
    ∃ scheme, ofAlgorithm algorithm = .ok scheme ∧ scheme.algorithm = algorithm := by
  cases algorithm with
  | none => cases h
  | signing family hash => cases family <;> exact ⟨_, rfl, rfl⟩

namespace Token

/-- What the log tells of signing with an object, by how signing ended. -/
inductive SigningExplained (algorithm : Algorithm) (document : Json) :
    Outcome Unit → List Event → Prop
  | signed (length : Nat) : SigningExplained algorithm document (.ok ()) [.signed algorithm length]
  | keyRejected {cause : Error} :
      (signingKey document algorithm).run.value = .error (.error cause) →
      SigningExplained algorithm document (.error (.error cause))
        [.signingKeyRejected algorithm cause]
  | failed {key : Key} (cause : Error) : (signingKey document algorithm).run.value = .ok key →
      SigningExplained algorithm document (.error (.error cause))
        [.signingFailed algorithm key.kind cause]
  | brokenOff : (signingKey document algorithm).run.value = .error .crash →
      SigningExplained algorithm document (.error .crash) []

/-- What does not break off is told by one event. -/
theorem SigningExplained.exists_event {algorithm : Algorithm} {document : Json}
    {outcome : Outcome Unit} {events : List Event}
    (h : SigningExplained algorithm document outcome events) (hended : outcome ≠ .error .crash) :
    ∃ event, events = [event] ∧
      (outcome = .ok () ∧ event.message = "signed" ∨
        ∃ cause, outcome = .error (.error cause) ∧ ("error", cause.message) ∈ event.fields ∧
          ((signingKey document algorithm).run.value = .error (.error cause) ∧
              event.message = "signing key rejected" ∨
            (∃ key, (signingKey document algorithm).run.value = .ok key) ∧
              event.message = "signing failed")) := by
  cases h with
  | signed length => exact ⟨_, rfl, Or.inl ⟨rfl, rfl⟩⟩
  | keyRejected hkey =>
      exact ⟨_, rfl, Or.inr ⟨_, rfl, List.getLast_mem (List.cons_ne_nil _ _),
        Or.inl ⟨hkey, rfl⟩⟩⟩
  | failed cause hkey =>
      exact ⟨_, rfl, Or.inr ⟨cause, rfl, List.getLast_mem (List.cons_ne_nil _ _),
        Or.inr ⟨⟨_, hkey⟩, rfl⟩⟩⟩
  | brokenOff _ => exact absurd rfl hended

theorem SigningExplained.eq_nil_of_crash {algorithm : Algorithm} {document : Json}
    {events : List Event} (h : SigningExplained algorithm document (.error .crash) events) :
    events = [] := by
  cases h
  rfl

theorem computeSignature_explained (token : Token) {algorithm : Algorithm}
    (hsigning : algorithm.isSigning = true) (document : Json) :
    SigningExplained algorithm document
      ((fun _ => ()) <$> (token.computeSignature algorithm document).run.value)
      (debugEvents (token.computeSignature algorithm document).run.events) := by
  have hquiet := signingKey_quiet document algorithm
  cases hrun : (signingKey document algorithm).run with
  | mk found events =>
      have hfound : (signingKey document algorithm).run.value = found := by rw [hrun]
      rw [Quiet, hrun] at hquiet
      rw [run_computeSignature token hrun, debugEvents_append, hquiet, List.nil_append]
      cases found with
      | error failure =>
          cases failure with
          | error cause => exact .keyRejected hfound
          | crash => exact .brokenOff hfound
      | ok key =>
          -- Only an algorithm without scheme would be refused without a report.
          obtain ⟨scheme, hscheme, rfl⟩ := Scheme.exists_of_isSigning hsigning
          change SigningExplained scheme.algorithm document
            ((fun _ => ()) <$>
              Outcome.ofExcept (scheme.algorithm.sign key token.signingInput).run.value)
            (debugEvents (scheme.algorithm.sign key token.signingInput).run.events)
          rw [Algorithm.run_sign hscheme]
          cases scheme.sign key token.signingInput with
          | ok signature => exact .signed signature.length
          | error cause => exact .failed cause hfound

/-- Signing with an object is explained as it ends. -/
theorem sign_explained (token : Token) {algorithm : Algorithm} (hsigning : algorithm.isSigning = true)
    (members : Members) :
    SigningExplained algorithm (.object members) (token.sign algorithm (.object members)).value.2
      (debugEvents (token.sign algorithm (.object members)).events) := by
  rw [(token.sign_object hsigning).1, (token.sign_object hsigning).2]
  exact (token.prepared algorithm).settled.computeSignature_explained hsigning (.object members)

/-- What is refused for its arguments reports nothing. -/
theorem events_sign_refused (token : Token) {algorithm : Algorithm} {document : Json}
    (h : algorithm = .none ∨ document.asObject? = none) :
    (token.sign algorithm document).events = [] := by
  rw [sign]
  rcases h with rfl | hnone
  · rfl
  · rw [hnone]
    cases algorithm.isSigning <;> rfl

/-! ### Checking -/

/-- There is nothing to check. -/
def HasNoSignature (token : Token) : Prop :=
  token.algorithm = .none ∨ token.signature.octets = []

theorem hasNoSignature_iff (token : Token) :
    (!token.algorithm.isSigning || token.signature.isEmpty) = true ↔ token.HasNoSignature := by
  rw [Bool.or_eq_true, Bool.not_eq_true', isSigning_eq_false_iff, BoundedOctets.isEmpty,
    List.isEmpty_iff, HasNoSignature]

/-- What the log tells of checking a signature, by whether it was found valid. -/
inductive CheckExplained (token : Token) (document : Json) : Bool → List Event → Prop
  | valid : CheckExplained token document true []
  | unsigned : token.HasNoSignature → CheckExplained token document false [.unsigned]
  | keyRejected {cause : Error} : ¬ token.HasNoSignature →
      (verifyingKey document token.algorithm).run.value = .error cause →
      CheckExplained token document false [.verifyingKeyRejected token.algorithm cause]
  | rejected {key : Key} {cause : Error} : ¬ token.HasNoSignature →
      (verifyingKey document token.algorithm).run.value = .ok key →
      token.algorithm.check key token.signingInput token.signature.octets = .error cause →
      CheckExplained token document false
        [.signatureRejected token.algorithm token.signature.octets.length cause]

theorem CheckExplained.eq_nil {token : Token} {document : Json} {events : List Event}
    (h : CheckExplained token document true events) : events = [] := by
  cases h
  rfl

theorem CheckExplained.exists_event {token : Token} {document : Json} {events : List Event}
    (h : CheckExplained token document false events) :
    ∃ event, events = [event] ∧
      (token.HasNoSignature ∧ event.message = "token is unsigned" ∨
        ¬ token.HasNoSignature ∧ ∃ cause, ("error", cause.message) ∈ event.fields ∧
          ((verifyingKey document token.algorithm).run.value = .error cause ∧
              event.message = "verification key rejected" ∨
            (∃ key, (verifyingKey document token.algorithm).run.value = .ok key ∧
                token.algorithm.check key token.signingInput token.signature.octets =
                  .error cause) ∧
              event.message = "signature rejected")) := by
  cases h with
  | unsigned hunsigned => exact ⟨_, rfl, Or.inl ⟨hunsigned, rfl⟩⟩
  | keyRejected hsigned hkey =>
      exact ⟨_, rfl, Or.inr ⟨hsigned, _, List.getLast_mem (List.cons_ne_nil _ _),
        Or.inl ⟨hkey, rfl⟩⟩⟩
  | rejected hsigned hkey hcheck =>
      exact ⟨_, rfl, Or.inr ⟨hsigned, _, List.getLast_mem (List.cons_ne_nil _ _),
        Or.inr ⟨⟨_, hkey, hcheck⟩, rfl⟩⟩⟩

theorem hasValidSignature_explained (token : Token) (document : Json) :
    CheckExplained token document (token.hasValidSignature document).value.2
      (debugEvents (token.hasValidSignature document).events) := by
  rw [hasValidSignature]
  split
  · rename_i hunsigned
    exact .unsigned (token.hasNoSignature_iff.mp hunsigned)
  · rename_i hsigned
    rw [hasNoSignature_iff] at hsigned
    have hquiet := verifyingKey_quiet document token.algorithm
    cases hrun : (verifyingKey document token.algorithm).run with
    | mk found events =>
        have hfound : (verifyingKey document token.algorithm).run.value = found := by rw [hrun]
        rw [Quiet, hrun] at hquiet
        rw [Logged.value_bind, Logged.events_bind, debugEvents_append, hquiet, List.nil_append]
        cases found with
        | error cause => exact .keyRejected hsigned hfound
        | ok key =>
            simp only [Algorithm.verify]
            cases hcheck : token.algorithm.check key token.signingInput token.signature.octets with
            | ok done => exact .valid
            | error cause => exact .rejected hsigned hfound hcheck

end Token

/-- A signature that is valid is told by no event, one that is not by one event, which says why. What
signing comes to is told by one event too, unless its arguments are refused; only if building the key
breaks off is it told by none. -/
theorem explained_once (token : Token) (document : Json) :
    ((token.hasValidSignature document).value.2 = true →
      debugEvents (token.hasValidSignature document).events = []) ∧
    ((token.hasValidSignature document).value.2 = false →
      ∃ event, debugEvents (token.hasValidSignature document).events = [event] ∧
        (token.HasNoSignature ∧ event.message = "token is unsigned" ∨
          ¬ token.HasNoSignature ∧ ∃ cause, ("error", cause.message) ∈ event.fields ∧
            ((verifyingKey document token.algorithm).run.value = .error cause ∧
                event.message = "verification key rejected" ∨
              (∃ key, (verifyingKey document token.algorithm).run.value = .ok key ∧
                  token.algorithm.check key token.signingInput token.signature.octets =
                    .error cause) ∧
                event.message = "signature rejected"))) ∧
    ∀ algorithm,
      (algorithm = .none ∨ document.asObject? = none →
        debugEvents (token.sign algorithm document).events = []) ∧
      (algorithm ≠ .none → document.asObject? ≠ none → ¬ BreaksOff document algorithm →
        ∃ event, debugEvents (token.sign algorithm document).events = [event] ∧
          ((token.sign algorithm document).value.2 = .ok () ∧ event.message = "signed" ∨
            ∃ cause, (token.sign algorithm document).value.2 = .error (.error cause) ∧
              ("error", cause.message) ∈ event.fields ∧
              ((signingKey document algorithm).run.value = .error (.error cause) ∧
                  event.message = "signing key rejected" ∨
                (∃ key, (signingKey document algorithm).run.value = .ok key) ∧
                  event.message = "signing failed"))) ∧
      (BreaksOff document algorithm →
        (token.sign algorithm document).value.2 = .error .crash ∧
          debugEvents (token.sign algorithm document).events = []) := by
  have hcheck := token.hasValidSignature_explained document
  refine ⟨fun hvalid => ?_, fun hinvalid => ?_, fun algorithm => ⟨fun hrefused => ?_,
    fun hnamed hobject hbuilt => ?_, fun hbreaks => ?_⟩⟩
  · rw [hvalid] at hcheck
    exact hcheck.eq_nil
  · rw [hinvalid] at hcheck
    exact hcheck.exists_event
  · rw [token.events_sign_refused hrefused]
    rfl
  · rw [Ne, ← Token.isSigning_eq_false_iff, Bool.not_eq_false] at hnamed
    cases document with
    | object members =>
        refine (token.sign_explained hnamed members).exists_event ?_
        rwa [Ne, Token.sign_eq_crash_iff, signingKey_eq_crash_iff_breaksOff]
    | _ => exact absurd rfl hobject
  · rw [← signingKey_eq_crash_iff_breaksOff] at hbreaks
    have hcrash := (token.sign_eq_crash_iff algorithm document).mpr hbreaks
    obtain ⟨jwk, hash, rfl, rfl, _⟩ := (signingKey_eq_crash_iff _ _).mp hbreaks
    have hexplained := token.sign_explained (rfl : (Algorithm.signing .rsa hash).isSigning = true)
      jwk.members
    rw [hcrash] at hexplained
    exact ⟨hcrash, hexplained.eq_nil_of_crash⟩

/-- A new token is told to be unsigned, and to be signed when a letter has signed it; that there is no
document to sign it with is not told. -/
theorem explained_of_new_token : ∃ document : Json,
    document = .object [("kty", .string "oct"), ("k", .string "YQ")] ∧
      (∃ event, debugEvents ((Token.new none).hasValidSignature document).events = [event] ∧
        event.message = "token is unsigned") ∧
      ((Token.new none).sign (.signing .symmetric .sha256) document).value.2 = .ok () ∧
      (∃ event, debugEvents
          ((Token.new none).sign (.signing .symmetric .sha256) document).events = [event] ∧
        event.message = "signed") ∧
      debugEvents ((Token.new none).sign (.signing .symmetric .sha256) .null).events = [] := by
  let document : Json := .object [("kty", .string "oct"), ("k", .string "YQ")]
  have hdone : ((Token.new none).sign (.signing .symmetric .sha256) document).value.2 = .ok () := by
    decide +kernel
  have hbuilt : ¬ BreaksOff document (.signing .symmetric .sha256) := by
    rintro ⟨_, _, _, _, _, _, _, _, hother, _⟩
    cases hother
  obtain ⟨_, hinvalid, hsign⟩ := explained_once (Token.new none) document
  obtain ⟨_, _, hnull⟩ := explained_once (Token.new none) .null
  refine ⟨document, rfl, ?_, hdone, ?_, (hnull (.signing .symmetric .sha256)).1 (Or.inr rfl)⟩
  · obtain ⟨event, hevent, ⟨_, hmessage⟩ | ⟨hsigned, _⟩⟩ := hinvalid rfl
    · exact ⟨event, hevent, hmessage⟩
    · exact absurd (Or.inl rfl) hsigned
  · obtain ⟨event, hevent, ⟨_, hmessage⟩ | ⟨cause, hcause, _⟩⟩ :=
      (hsign (.signing .symmetric .sha256)).2.1 (by decide) (Option.some_ne_none _) hbuilt
    · exact ⟨event, hevent, hmessage⟩
    · cases hdone.symm.trans hcause

/-- A document with a private exponent of zero, from which no key is built nor refused: what signing came
to is not told. -/
theorem unexplained_of_zero_exponent : ∃ document : Json,
    document = .object [("kty", .string "RSA"), ("n", .string "Dw"), ("e", .string "AQAB"),
      ("d", .string "AA")] ∧
      document.asObject? ≠ none ∧
      ¬ ∃ event, debugEvents
        ((Token.new none).sign (.signing .rsa .sha256) document).events = [event] := by
  refine ⟨_, rfl, Option.some_ne_none _, ?_⟩
  rintro ⟨event, hevent⟩
  have hnone : debugEvents ((Token.new none).sign (.signing .rsa .sha256) (.object
      [("kty", .string "RSA"), ("n", .string "Dw"), ("e", .string "AQAB"),
        ("d", .string "AA")])).events = [] := by
    decide +kernel
  cases hnone.symm.trans hevent

end WebToken
