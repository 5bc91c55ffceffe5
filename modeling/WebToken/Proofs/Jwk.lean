import WebToken.Jwk
import WebToken.Proofs.Compact
import WebToken.Scheme

/-! When a key document gives a key: which members must be there, what they must be, and which numbers
make a key on a curve. -/

namespace WebToken

/-- The cause lies in the numbers that a key is to be made of. -/
def Error.OfNumbers (cause : Error) : Prop :=
  ∃ fault, cause = .keyInvalid fault

namespace Key

theorem coordinate_refuses (curve : Curve) (octets : Octets) :
    Refuses Error.OfNumbers (coordinate curve octets) := by
  rw [coordinate]
  split
  · exact .error ⟨_, rfl⟩
  · exact .ok _

theorem ofEcdsaScalar_refuses (curve : Curve) (octets : Octets) :
    Refuses Error.OfNumbers (ofEcdsaScalar curve octets) := by
  refine (coordinate_refuses curve octets).bind fun scalar _ => ?_
  split
  · exact .ok _
  · exact .error ⟨_, rfl⟩

theorem ofEcdsaPoint_refuses (curve : Curve) (xOctets yOctets : Octets) :
    Refuses Error.OfNumbers (ofEcdsaPoint curve xOctets yOctets) := by
  refine (coordinate_refuses curve xOctets).bind fun x _ => ?_
  refine (coordinate_refuses curve yOctets).bind fun y _ => ?_
  split
  · exact .ok _
  · exact .error ⟨_, rfl⟩

theorem ofRsaPublic_refuses (modulus exponent : Octets) :
    Refuses Error.OfNumbers (ofRsaPublic modulus exponent) := by
  rw [ofRsaPublic]
  split
  · exact .ok _
  · exact .error ⟨_, rfl⟩

theorem ofRsaPrivate_refuses (components : Rsa.Components) :
    Refuses (Failure.Only Error.OfNumbers) (ofRsaPrivate components) := by
  rw [ofRsaPrivate]
  split
  · exact .ok _
  · exact .error ⟨_, rfl⟩
  · exact .error trivial

/-- A scalar is refused for its length first, and then for its range. -/
theorem ofEcdsaScalar_eq (curve : Curve) (octets : Octets) :
    ofEcdsaScalar curve octets =
      if curve.fieldSize < octets.length then
        .error (.keyInvalid (.coordinateTooLong curve octets.length))
      else if 0 < Octets.toNat octets ∧ Octets.toNat octets < curve.order then
        .ok (.ecdsa (.signing ⟨curve, Octets.toNat octets⟩))
      else .error (.keyInvalid (.invalidScalar curve)) := by
  rw [ofEcdsaScalar, coordinate]
  split <;> rfl

theorem coordinate_eq_ok_iff (curve : Curve) (octets : Octets) (value : Nat) :
    coordinate curve octets = .ok value ↔
      octets.length ≤ curve.fieldSize ∧ value = Octets.toNat octets := by
  rw [coordinate]
  split
  · rename_i hlong
    refine iff_of_false (by rintro ⟨⟩) ?_
    rintro ⟨hfits, _⟩
    exact Nat.not_le_of_lt hlong hfits
  · rename_i hfits
    rw [Except.ok.injEq]
    exact ⟨fun h => ⟨Nat.le_of_not_lt hfits, h.symm⟩, fun h => h.2.symm⟩

theorem ofEcdsaScalar_eq_ok_iff (curve : Curve) (octets : Octets) (key : Key) :
    ofEcdsaScalar curve octets = .ok key ↔
      octets.length ≤ curve.fieldSize ∧
        (0 < Octets.toNat octets ∧ Octets.toNat octets < curve.order) ∧
        key = .ecdsa (.signing ⟨curve, Octets.toNat octets⟩) := by
  rw [ofEcdsaScalar, bind_eq_ok_iff]
  simp only [coordinate_eq_ok_iff]
  constructor
  · rintro ⟨_, ⟨hfits, rfl⟩, h⟩
    split at h
    · rename_i hrange
      cases h
      exact ⟨hfits, hrange, rfl⟩
    · cases h
  · rintro ⟨hfits, hrange, rfl⟩
    exact ⟨_, ⟨hfits, rfl⟩, if_pos hrange⟩

theorem ofEcdsaPoint_eq_ok_iff (curve : Curve) (xOctets yOctets : Octets) (key : Key) :
    ofEcdsaPoint curve xOctets yOctets = .ok key ↔
      xOctets.length ≤ curve.fieldSize ∧ yOctets.length ≤ curve.fieldSize ∧
        (Octets.toNat xOctets < curve.fieldPrime ∧ Octets.toNat yOctets < curve.fieldPrime ∧
          curve.satisfies (Octets.toNat xOctets) (Octets.toNat yOctets) = true) ∧
        key = .ecdsa (.verifying ⟨curve, Octets.toNat xOctets, Octets.toNat yOctets⟩) := by
  rw [ofEcdsaPoint, bind_eq_ok_iff]
  simp only [bind_eq_ok_iff, coordinate_eq_ok_iff]
  constructor
  · rintro ⟨_, ⟨hx, rfl⟩, _, ⟨hy, rfl⟩, h⟩
    split at h
    · rename_i hpoint
      cases h
      exact ⟨hx, hy, hpoint, rfl⟩
    · cases h
  · rintro ⟨hx, hy, hpoint, rfl⟩
    exact ⟨_, ⟨hx, rfl⟩, _, ⟨hy, rfl⟩, if_pos hpoint⟩

theorem eq_of_ofEcdsaScalar {curve : Curve} {octets : Octets} {key : Key}
    (h : ofEcdsaScalar curve octets = .ok key) :
    ∃ scalar, 0 < scalar ∧ scalar < curve.order ∧ key = .ecdsa (.signing ⟨curve, scalar⟩) := by
  obtain ⟨_, ⟨hpos, hlt⟩, rfl⟩ := (ofEcdsaScalar_eq_ok_iff _ _ _).mp h
  exact ⟨_, hpos, hlt, rfl⟩

end Key

namespace Jwk

theorem requiredText_eq_ok_iff (jwk : Jwk) (member text : String) :
    jwk.requiredText member = .ok text ↔ jwk.members.find? member = some (.string text) := by
  rw [requiredText]
  split <;> simp_all

/-- A member has a value if it is a string, and the written form of some octets within the limit. -/
theorem octets?_eq_some_iff (jwk : Jwk) (member : String) (octets : Octets) :
    jwk.octets? member = .ok (some octets) ↔
      jwk.members.find? member = some (.string (Base64Url.encode octets)) ∧
        0 < octets.length ∧ octets.length ≤ 1024 := by
  rw [octets?]
  constructor
  · intro h
    split at h
    · cases h
    · rename_i text hmember
      split at h
      · cases h
      · split at h
        · cases h
        · cases h
        · rename_i found hne hfound
          cases h
          obtain ⟨rfl, hlength⟩ := (Base64Url.decode_eq_ok_iff valueLimit _ _).mp hfound
          exact ⟨hmember, List.length_pos_iff.mpr hne, hlength⟩
    · cases h
  · rintro ⟨hmember, hpos, hlength⟩
    have hshort : ¬textLimit < (Base64Url.encode octets).utf8ByteSize := by
      rw [textLimit, Base64Url.toNat_encodedLength, Base64Url.utf8ByteSize_encode]
      change ¬(1024 * 4 + 2) / 3 < (octets.length * 4 + 2) / 3
      omega
    simp only [hmember, if_neg hshort,
      (Base64Url.decode_eq_ok_iff valueLimit _ _).mpr ⟨rfl, hlength⟩]
    cases octets with
    | nil => cases hpos
    | cons octet rest => rfl

theorem octets_eq_ok_iff (jwk : Jwk) (member : String) (octets : Octets) :
    jwk.octets member = .ok octets ↔
      jwk.members.find? member = some (.string (Base64Url.encode octets)) ∧
        0 < octets.length ∧ octets.length ≤ 1024 := by
  rw [← octets?_eq_some_iff, Jwk.octets, bind_eq_ok_iff]
  constructor
  · rintro ⟨found, hfound, h⟩
    split at h
    · cases h
      exact hfound
    · cases h
  · intro h
    exact ⟨some octets, h, rfl⟩

theorem keyType_supported (family : Family) : family.keyType ∈ ["oct", "RSA", "EC"] := by
  cases family <;> decide

theorem checkAlgorithm_eq_ok_iff (jwk : Jwk) (algorithm : Algorithm) (family : Family)
    (done : Unit) : (jwk.checkAlgorithm algorithm family).run.value = .ok done ↔
      jwk.members.find? "kty" = some (.string family.keyType) := by
  rw [checkAlgorithm, ← requiredText_eq_ok_iff]
  simp only [value_run_bind, value_run_lift, bind_eq_ok_iff]
  constructor
  · rintro ⟨keyType, hkeyType, h⟩
    split at h
    · cases h
    · split at h
      · cases h
      · rename_i hsame
        rwa [Decidable.not_not.mp hsame] at hkeyType
  · intro h
    refine ⟨family.keyType, h, ?_⟩
    rw [if_neg (not_not_intro (keyType_supported family)), if_neg (not_not_intro rfl)]
    split
    · split <;> rfl
    · rfl

theorem ofJson_eq_ok_iff (document : Json) (jwk : Jwk) :
    ofJson document = .ok jwk ↔ document = .object jwk.members := by
  obtain ⟨members⟩ := jwk
  cases document <;> simp [ofJson]

theorem familyOf_eq_ok_iff (algorithm : Algorithm) (family : Family) :
    familyOf algorithm = .ok family ↔ algorithm.family? = some family := by
  rw [familyOf]
  split <;> simp_all

/-- A document fits an algorithm if it is an object with the key type of the algorithm's family,
whatever else it tells. -/
theorem fitting_eq_ok_iff (purpose : Purpose) (document : Json) (algorithm : Algorithm) (jwk : Jwk)
    (family : Family) :
    (fitting purpose document algorithm).run.value = .ok (jwk, family) ↔
      document = .object jwk.members ∧ algorithm.family? = some family ∧
        jwk.members.find? "kty" = some (.string family.keyType) := by
  simp only [fitting, value_run_bind, value_run_lift, bind_eq_ok_iff, ofJson_eq_ok_iff,
    familyOf_eq_ok_iff, checkAlgorithm_eq_ok_iff, value_run_report, value_run_pure]
  constructor
  · rintro ⟨found, hdocument, other, hfamily, _, hkeyType, _, _, h⟩
    cases h
    exact ⟨hdocument, hfamily, hkeyType⟩
  · rintro ⟨hdocument, hfamily, hkeyType⟩
    exact ⟨jwk, hdocument, family, hfamily, (), hkeyType, (), trivial, rfl⟩

/-- The curve that a document gives is the one that it names, and the algorithm's. -/
theorem curve_eq_ok_iff (jwk : Jwk) (hash : Hash) (curve : Curve) :
    jwk.curve (.signing .ecdsa hash) = .ok curve ↔
      ∃ name, jwk.members.find? "crv" = some (.string name) ∧ Curve.ofName name = .ok curve ∧
        curve = Algorithm.curveFor hash := by
  simp only [Jwk.curve, bind_eq_ok_iff, requiredText_eq_ok_iff, Algorithm.curve?]
  constructor
  · rintro ⟨name, hname, found, hfound, h⟩
    split at h
    · rename_i hcurve
      cases h
      exact ⟨name, hname, hfound, hcurve.symm⟩
    · cases h
  · rintro ⟨name, hname, hfound, rfl⟩
    exact ⟨name, hname, _, hfound, if_pos rfl⟩

/-- The numbers of a private key are those that the members write; values for evaluation modulo the
factors go only with both factors. -/
theorem rsaComponents_eq_ok_iff (jwk : Jwk) (components : Rsa.Components) :
    jwk.rsaComponents.run.value = .ok components ↔
      ∃ modulus exponent privateExponent primes crt,
        jwk.octets "n" = .ok modulus ∧ jwk.octets "e" = .ok exponent ∧
        jwk.octets "d" = .ok privateExponent ∧ jwk.primes.run.value = .ok primes ∧
        jwk.crt.run.value = .ok crt ∧
        components = ⟨Octets.toNat modulus, Octets.toNat exponent, Octets.toNat privateExponent,
          primes, if primes.isSome then crt else none⟩ := by
  simp only [rsaComponents, value_run_bind, value_run_lift, bind_eq_ok_iff]
  constructor
  · rintro ⟨modulus, hmodulus, exponent, hexponent, privateExponent, hprivate, primes, hprimes, crt,
      hcrt, h⟩
    refine ⟨modulus, exponent, privateExponent, primes, crt, hmodulus, hexponent, hprivate, hprimes,
      hcrt, ?_⟩
    split at h
    all_goals
      cases h
      rfl
  · rintro ⟨modulus, exponent, privateExponent, primes, crt, hmodulus, hexponent, hprivate, hprimes,
      hcrt, rfl⟩
    refine ⟨modulus, hmodulus, exponent, hexponent, privateExponent, hprivate, primes, hprimes, crt,
      hcrt, ?_⟩
    split <;> rfl

/-- Modulus and exponent of a private key are read like those of a public one. -/
theorem public_of_rsaComponents {jwk : Jwk} {components : Rsa.Components}
    (h : jwk.rsaComponents.run.value = .ok components) :
    ∃ modulus exponent, jwk.octets "n" = .ok modulus ∧ jwk.octets "e" = .ok exponent ∧
      components.modulus = Octets.toNat modulus ∧ components.exponent = Octets.toNat exponent := by
  obtain ⟨modulus, exponent, _, _, _, hmodulus, hexponent, _, _, _, rfl⟩ :=
    (rsaComponents_eq_ok_iff _ _).mp h
  exact ⟨modulus, exponent, hmodulus, hexponent, rfl, rfl⟩

/-- The key for signing that the members for a family make. -/
def signingKeyOf (jwk : Jwk) (algorithm : Algorithm) : Family → Outcome Key
  | .symmetric => Outcome.ofExcept jwk.symmetricKey
  | .rsa => jwk.rsaPrivateKey.run.value
  | .ecdsa => Outcome.ofExcept (jwk.ecdsaSigningKey algorithm)

/-- The key for verification that the members for a family make. -/
def verifyingKeyOf (jwk : Jwk) (algorithm : Algorithm) : Family → Except Error Key
  | .symmetric => jwk.symmetricKey
  | .rsa => jwk.rsaPublicKey
  | .ecdsa => jwk.ecdsaVerifyingKey algorithm

end Jwk

theorem signingKey_eq_ok_iff (document : Json) (algorithm : Algorithm) (key : Key) :
    (signingKey document algorithm).run.value = .ok key ↔
      ∃ (jwk : Jwk) (family : Family),
        document = .object jwk.members ∧ algorithm.family? = some family ∧
          jwk.members.find? "kty" = some (.string family.keyType) ∧
          jwk.signingKeyOf algorithm family = .ok key := by
  simp only [signingKey, value_run_bind, value_run_attempt, bind_eq_ok_iff, ofExcept_eq_ok_iff,
    Prod.exists, Jwk.fitting_eq_ok_iff]
  constructor
  · rintro ⟨jwk, family, ⟨hdocument, hfamily, hkeyType⟩, h⟩
    refine ⟨jwk, family, hdocument, hfamily, hkeyType, ?_⟩
    cases family <;> exact h
  · rintro ⟨jwk, family, hdocument, hfamily, hkeyType, h⟩
    refine ⟨jwk, family, ⟨hdocument, hfamily, hkeyType⟩, ?_⟩
    cases family <;> exact h

theorem verifyingKey_eq_ok_iff (document : Json) (algorithm : Algorithm) (key : Key) :
    (verifyingKey document algorithm).run.value = .ok key ↔
      ∃ (jwk : Jwk) (family : Family),
        document = .object jwk.members ∧ algorithm.family? = some family ∧
          jwk.members.find? "kty" = some (.string family.keyType) ∧
          jwk.verifyingKeyOf algorithm family = .ok key := by
  simp only [verifyingKey, value_run_bind, bind_eq_ok_iff, Prod.exists, Jwk.fitting_eq_ok_iff]
  constructor
  · rintro ⟨jwk, family, ⟨hdocument, hfamily, hkeyType⟩, h⟩
    refine ⟨jwk, family, hdocument, hfamily, hkeyType, ?_⟩
    cases family <;> exact h
  · rintro ⟨jwk, family, hdocument, hfamily, hkeyType, h⟩
    refine ⟨jwk, family, ⟨hdocument, hfamily, hkeyType⟩, ?_⟩
    cases family <;> exact h

/-- For keyed hashing a document gives exactly the secret that it writes. -/
theorem verifyingKey_symmetric_iff (document : Json) (hash : Hash) (key : Key) :
    (verifyingKey document (.signing .symmetric hash)).run.value = .ok key ↔
      ∃ (members : Members) (secret : Octets), document = .object members ∧
        members.find? "kty" = some (.string "oct") ∧
        members.find? "k" = some (.string (Base64Url.encode secret)) ∧
        0 < secret.length ∧ secret.length ≤ 1024 ∧ key = .symmetric secret := by
  rw [verifyingKey_eq_ok_iff]
  constructor
  · rintro ⟨jwk, family, hdocument, hfamily, hkeyType, h⟩
    cases hfamily
    obtain ⟨secret, hsecret, h⟩ := bind_eq_ok_iff.mp h
    obtain ⟨hmember, hpos, hlength⟩ := (Jwk.octets_eq_ok_iff _ _ _).mp hsecret
    cases h
    exact ⟨jwk.members, secret, hdocument, hkeyType, hmember, hpos, hlength, rfl⟩
  · rintro ⟨members, secret, hdocument, hkeyType, hmember, hpos, hlength, rfl⟩
    refine ⟨⟨members⟩, .symmetric, hdocument, rfl, hkeyType, bind_eq_ok_iff.mpr ⟨secret, ?_, rfl⟩⟩
    exact (Jwk.octets_eq_ok_iff _ _ _).mpr ⟨hmember, hpos, hlength⟩

namespace Algorithm

theorem verify_eq_true_iff (algorithm : Algorithm) (key : Key) (input signature : Octets) :
    (algorithm.verify key input signature).value = true ↔
      algorithm.check key input signature = .ok () := by
  rw [verify]
  split
  · rename_i hcheck
    exact iff_of_true rfl hcheck
  · rename_i cause hcheck
    rw [hcheck]
    exact iff_of_false Bool.false_ne_true (fun h => nomatch h)

theorem verify_symmetric_iff (hash : Hash) (secret input signature : Octets) :
    ((signing .symmetric hash).verify (.symmetric secret) input signature).value = true ↔
      signature = hash.hmac secret input := by
  rw [verify_eq_true_iff]
  change Scheme.accept (signature == hash.hmac secret input) = .ok () ↔ _
  rw [Scheme.accept]
  split <;> simp_all

end Algorithm

end WebToken
