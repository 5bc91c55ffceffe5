import WebToken.Proofs.Rsa.Checked
import WebToken.Proofs.Token.Operations
import WebToken.Proofs.Verification

/-! When signing breaks off, without a signature or a cause. That happens only while the factors of an
RSA key are found, and only if its modulus or its private exponent is zero: such numbers are refused
with supplied factors, but not before the search for them. -/

namespace WebToken

theorem bind_eq_crash_iff {α β : Type} {first : Outcome α} {next : α → Outcome β} :
    first >>= next = .error .crash ↔
      first = .error .crash ∨ ∃ value, first = .ok value ∧ next value = .error .crash := by
  cases first with
  | error failure =>
      constructor
      · intro h
        cases h
        exact Or.inl rfl
      · rintro (h | ⟨_, h, _⟩)
        · cases h
          rfl
        · cases h
  | ok value =>
      refine ⟨fun h => Or.inr ⟨value, rfl, h⟩, ?_⟩
      rintro (h | ⟨other, hother, h⟩)
      · cases h
      · cases hother
        exact h

/-- What is only refused does not break off. -/
theorem ofExcept_ne_crash {α : Type} (result : Except Error α) :
    Outcome.ofExcept result ≠ .error .crash := by
  cases result with
  | error cause => exact fun h => nomatch h
  | ok value => exact fun h => nomatch h

namespace Rsa

theorem recover_eq_belowZero_iff (modulus exponent privateExponent : Nat) :
    recover modulus exponent privateExponent = .belowZero ↔
      2 ^ 16 < exponent ∧ exponent < 2 ^ 256 ∧ (modulus = 0 ∨ privateExponent = 0) := by
  have hpowers : 1 <<< 16 = 2 ^ 16 ∧ 1 <<< 256 = 2 ^ 256 := by decide
  by_cases hexponent : exponent ≤ 1 <<< 16 ∨ 1 <<< 256 ≤ exponent
  · rw [recover_of_exponent hexponent]
    refine iff_of_false (fun h => nomatch h) ?_
    omega
  by_cases hzero : modulus = 0 ∨ privateExponent = 0
  · rw [recover_of_zero hexponent hzero]
    refine iff_of_true rfl ?_
    omega
  · refine iff_of_false (fun h => ?_) fun h => hzero h.2.2
    rw [recover, if_neg hexponent, if_neg hzero] at h
    dsimp only at h
    split at h
    · cases h
    · split at h
      · cases h
      · split at h <;> cases h

theorem ofExcept_ne_belowZero (result : Except Fault PrivateKey) :
    Building.ofExcept result ≠ .belowZero := by
  cases result <;> rintro ⟨⟩

theorem PrivateKey.build_eq_belowZero_iff (components : Components) :
    build components = .belowZero ↔ components.primes = none ∧
      2 ^ 16 < components.exponent ∧ components.exponent < 2 ^ 256 ∧
      (components.modulus = 0 ∨ components.privateExponent = 0) := by
  rw [build, ← recover_eq_belowZero_iff]
  cases components.primes with
  | some primes =>
      refine iff_of_false (ofExcept_ne_belowZero _) ?_
      rintro ⟨⟨⟩, _⟩
  | none =>
      cases recover components.modulus components.exponent components.privateExponent with
      | found p q =>
          refine iff_of_false (ofExcept_ne_belowZero _) ?_
          rintro ⟨_, ⟨⟩⟩
      | refused fault =>
          refine iff_of_false ?_ ?_
          · rintro ⟨⟩
          · rintro ⟨_, ⟨⟩⟩
      | belowZero => exact iff_of_true rfl ⟨rfl, rfl⟩

end Rsa

/-! ### Documents -/

/-- RSA documents that do not supply both factors, whose modulus or private exponent is zero, and whose
public exponent is one that the search for the factors goes on with. -/
def BreaksOff (document : Json) (algorithm : Algorithm) : Prop :=
  ∃ (jwk : Jwk) (hash : Hash) (modulus exponent privateExponent : Octets) (p q : Option Octets),
    document = .object jwk.members ∧ algorithm = .signing .rsa hash ∧
      jwk.members.find? "kty" = some (.string "RSA") ∧
      jwk.octets "n" = .ok modulus ∧ jwk.octets "e" = .ok exponent ∧
      jwk.octets "d" = .ok privateExponent ∧
      jwk.octets? "p" = .ok p ∧ jwk.octets? "q" = .ok q ∧ (p = none ∨ q = none) ∧
      (∀ member ∈ ["dp", "dq", "qi"], ∃ value, jwk.octets? member = .ok value) ∧
      2 ^ 16 < Octets.toNat exponent ∧ Octets.toNat exponent < 2 ^ 256 ∧
      (Octets.toNat modulus = 0 ∨ Octets.toNat privateExponent = 0)

namespace Jwk

variable (jwk : Jwk)

theorem primes_eq_none_iff : jwk.primes.run.value = .ok none ↔
    ∃ p q, jwk.octets? "p" = .ok p ∧ jwk.octets? "q" = .ok q ∧ (p = none ∨ q = none) := by
  simp only [primes, value_run_bind, value_run_lift, bind_eq_ok_iff]
  refine exists_congr fun p => ?_
  rw [← exists_and_left]
  refine exists_congr fun q => and_congr_right fun _ => and_congr_right fun _ => ?_
  cases p with
  | none =>
      refine iff_of_true ?_ (Or.inl rfl)
      cases q <;> rfl
  | some p =>
      cases q with
      | none => exact iff_of_true rfl (Or.inr rfl)
      | some q => exact iff_of_false (fun h => nomatch h) (fun h => nomatch h)

theorem exists_crt_iff : (∃ found, jwk.crt.run.value = .ok found) ↔
    ∀ member ∈ ["dp", "dq", "qi"], ∃ value, jwk.octets? member = .ok value := by
  simp only [crt, value_run_bind, value_run_lift, bind_eq_ok_iff, List.forall_mem_cons,
    List.not_mem_nil, false_implies, implies_true, and_true]
  constructor
  · rintro ⟨_, exponentP, hexponentP, exponentQ, hexponentQ, coefficient, hcoefficient, _⟩
    exact ⟨⟨_, hexponentP⟩, ⟨_, hexponentQ⟩, ⟨_, hcoefficient⟩⟩
  · rintro ⟨⟨exponentP, hexponentP⟩, ⟨exponentQ, hexponentQ⟩, ⟨coefficient, hcoefficient⟩⟩
    cases exponentP <;> cases exponentQ <;> cases coefficient <;>
      exact ⟨_, _, hexponentP, _, hexponentQ, _, hcoefficient, rfl⟩

/-- The members of an RSA key break off what is built from them. -/
theorem rsaPrivateKey_eq_crash_iff :
    jwk.rsaPrivateKey.run.value = .error .crash ↔
      ∃ components, jwk.rsaComponents.run.value = .ok components ∧
        Rsa.PrivateKey.build components = .belowZero := by
  have hbuild : ∀ components, Key.ofRsaPrivate components = .error .crash ↔
      Rsa.PrivateKey.build components = .belowZero := by
    intro components
    rw [Key.ofRsaPrivate]
    split <;> simp_all
  simp only [rsaPrivateKey, value_run_bind, value_run_attempt, value_run_lift, bind_eq_crash_iff,
    ofExcept_ne_crash, ofExcept_eq_ok_iff, false_or, hbuild]

end Jwk

theorem signingKey_eq_crash_iff (document : Json) (algorithm : Algorithm) :
    (signingKey document algorithm).run.value = .error .crash ↔
      ∃ (jwk : Jwk) (hash : Hash), document = .object jwk.members ∧ algorithm = .signing .rsa hash ∧
        jwk.members.find? "kty" = some (.string "RSA") ∧
        jwk.rsaPrivateKey.run.value = .error .crash := by
  simp only [signingKey, value_run_bind, value_run_attempt, bind_eq_crash_iff, ofExcept_ne_crash,
    ofExcept_eq_ok_iff, false_or, Prod.exists, Jwk.fitting_eq_ok_iff]
  refine exists_congr fun jwk => ?_
  constructor
  · rintro ⟨family, ⟨hdocument, hfamily, hkeyType⟩, h⟩
    obtain ⟨hash, rfl⟩ := Algorithm.exists_hash_of_family? hfamily
    cases family with
    | symmetric => exact absurd h (ofExcept_ne_crash _)
    | rsa => exact ⟨hash, hdocument, rfl, hkeyType, h⟩
    | ecdsa => exact absurd h (ofExcept_ne_crash _)
  · rintro ⟨hash, hdocument, rfl, hkeyType, h⟩
    exact ⟨.rsa, ⟨hdocument, rfl, hkeyType⟩, h⟩

theorem signingKey_eq_crash_iff_breaksOff (document : Json) (algorithm : Algorithm) :
    (signingKey document algorithm).run.value = .error .crash ↔ BreaksOff document algorithm := by
  simp only [signingKey_eq_crash_iff, Jwk.rsaPrivateKey_eq_crash_iff, Jwk.rsaComponents_eq_ok_iff,
    Rsa.PrivateKey.build_eq_belowZero_iff]
  refine exists_congr fun jwk => exists_congr fun hash => ?_
  constructor
  · rintro ⟨hdocument, halgorithm, hkeyType, components, ⟨modulus, exponent, privateExponent, primes,
      crt, hmodulus, hexponent, hprivate, hprimes, hcrt, rfl⟩, hnone, hlow, hhigh, hzero⟩
    obtain rfl : primes = none := hnone
    obtain ⟨p, q, hp, hq, hlone⟩ := jwk.primes_eq_none_iff.mp hprimes
    exact ⟨modulus, exponent, privateExponent, p, q, hdocument, halgorithm, hkeyType, hmodulus,
      hexponent, hprivate, hp, hq, hlone, jwk.exists_crt_iff.mp ⟨crt, hcrt⟩, hlow, hhigh, hzero⟩
  · rintro ⟨modulus, exponent, privateExponent, p, q, hdocument, halgorithm, hkeyType, hmodulus,
      hexponent, hprivate, hp, hq, hlone, hmembers, hlow, hhigh, hzero⟩
    obtain ⟨crt, hcrt⟩ := jwk.exists_crt_iff.mpr hmembers
    have hprimes := jwk.primes_eq_none_iff.mpr ⟨p, q, hp, hq, hlone⟩
    exact ⟨hdocument, halgorithm, hkeyType, _, ⟨modulus, exponent, privateExponent, none, crt,
      hmodulus, hexponent, hprivate, hprimes, hcrt, rfl⟩, rfl, hlow, hhigh, hzero⟩

namespace Token

theorem computeSignature_eq_crash_iff (token : Token) (algorithm : Algorithm) (document : Json) :
    (token.computeSignature algorithm document).run.value = .error .crash ↔
      (signingKey document algorithm).run.value = .error .crash := by
  rw [computeSignature, value_run_bind, bind_eq_crash_iff]
  constructor
  · rintro (h | ⟨found, hfound, h⟩)
    · cases h
    · obtain rfl : found = (signingKey document algorithm).run.value :=
        (Except.ok.inj hfound).symm
      split at h
      · rw [value_run_attempt] at h
        exact absurd h (ofExcept_ne_crash _)
      · cases h
      · assumption
  · intro hkey
    refine Or.inr ⟨.error .crash, congrArg _ hkey, rfl⟩

/-- Signing breaks off if and only if building the key does, whatever the token is. -/
theorem sign_eq_crash_iff (token : Token) (algorithm : Algorithm) (document : Json) :
    (token.sign algorithm document).value.2 = .error .crash ↔
      (signingKey document algorithm).run.value = .error .crash := by
  obtain ⟨hrefused, cause, hvalue⟩ | ⟨_, _, hvalue⟩ := token.sign_cases algorithm document
  · rw [hvalue]
    refine iff_of_false (fun h => nomatch h) fun h => ?_
    obtain ⟨jwk, hash, rfl, rfl, _⟩ := (signingKey_eq_crash_iff _ _).mp h
    rcases hrefused with hrefused | hrefused <;> cases hrefused
  · rw [← computeSignature_eq_crash_iff (token.prepared algorithm).settled]
    obtain ⟨failure, hcomputed, hvalue⟩ | ⟨signature, hcomputed, hvalue⟩ := hvalue
    · rw [hvalue, hcomputed, Except.error.injEq, Except.error.injEq]
    · rw [hvalue, hcomputed]
      exact iff_of_false (fun h => nomatch h) (fun h => nomatch h)

end Token

/-- Building an RSA key breaks off exactly where a subtraction has no difference or a division no
quotient. That makes signing break off for certain documents with a modulus or a private exponent of
zero, and for no others, whatever the token is. -/
theorem crash_iff_breaksOff (document : Json) (algorithm : Algorithm) :
    (∀ components, (Rsa.PrivateKey.build components).checked =
      Rsa.PrivateKey.build? components) ∧
    ((signingKey document algorithm).run.value = .error .crash ↔ BreaksOff document algorithm) ∧
    ∀ token : Token,
      (token.sign algorithm document).value.2 = .error .crash ↔ BreaksOff document algorithm := by
  refine ⟨Rsa.checked_build, signingKey_eq_crash_iff_breaksOff document algorithm, fun token => ?_⟩
  rw [Token.sign_eq_crash_iff, signingKey_eq_crash_iff_breaksOff]

/-- A document with a private exponent of zero breaks off key building, and with it signing. -/
theorem crash_of_zero_exponent : ∃ document : Json,
    document = .object [("kty", .string "RSA"), ("n", .string "Dw"), ("e", .string "AQAB"),
      ("d", .string "AA")] ∧
      (signingKey document (.signing .rsa .sha256)).run.value = .error .crash ∧
      ((Token.new none).sign (.signing .rsa .sha256) document).value.2 = .error .crash := by
  refine ⟨_, rfl, ?_, ?_⟩ <;> decide +kernel

end WebToken
