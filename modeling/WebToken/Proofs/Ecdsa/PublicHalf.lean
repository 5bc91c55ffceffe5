import WebToken.Proofs.Ecdsa

/-! A private scalar verifies as its point does. Both are keys on one curve with one point, and
verification reads nothing else of them; only what they are called differs, and an algorithm of another
family names it when it refuses them. -/

namespace WebToken

/-- Two keys have one public half. -/
structure Ecdsa.Key.SameHalf (left right : Ecdsa.Key) : Prop where
  curve : left.curve = right.curve
  point : left.point = right.point

/-- Verification reads the public half of a key. -/
theorem Scheme.verify_ecdsa_congr {left right : Ecdsa.Key} (hsame : left.SameHalf right)
    (algorithm : Algorithm) (hash : Hash) (curve : Curve) (input signature : Octets) :
    (ecdsa algorithm hash curve).verify (.ecdsa left) input signature =
      (ecdsa algorithm hash curve).verify (.ecdsa right) input signature := by
  rw [verify_ecdsa, verify_ecdsa, hsame.curve, hsame.point]

namespace Algorithm

section

variable (hash : Hash) (key : Ecdsa.Key) (input signature : Octets)

theorem check_symmetric_ecdsa : (signing .symmetric hash).check (.ecdsa key) input signature =
    .error (.keyTypeMismatch "HMAC" "Symmetric" (Key.ecdsa key).kind) := rfl

theorem check_rsa_ecdsa : (signing .rsa hash).check (.ecdsa key) input signature =
    .error (.keyTypeMismatch "RSA" "RSA" (Key.ecdsa key).kind) := rfl

end

/-- Whichever the algorithm, two keys with one public half fit the same signatures. -/
theorem value_verify_congr {left right : Ecdsa.Key} (hsame : left.SameHalf right)
    (algorithm : Algorithm) (input signature : Octets) :
    (algorithm.verify (.ecdsa left) input signature).value =
      (algorithm.verify (.ecdsa right) input signature).value := by
  rw [Bool.eq_iff_iff, verify_eq_true_iff, verify_eq_true_iff]
  match algorithm with
  | none => exact Iff.rfl
  | signing .symmetric hash =>
      rw [check_symmetric_ecdsa, check_symmetric_ecdsa]
      exact iff_of_false (by rintro ⟨⟩) (by rintro ⟨⟩)
  | signing .rsa hash =>
      rw [check_rsa_ecdsa, check_rsa_ecdsa]
      exact iff_of_false (by rintro ⟨⟩) (by rintro ⟨⟩)
  | signing .ecdsa hash =>
      rw [check_ecdsa, check_ecdsa, Scheme.verify_ecdsa_congr hsame]

end Algorithm

/-- The coordinates of the point of a private scalar make a key for verification. Signatures are checked
with the one as with the other, by every algorithm on curves and with the same error if they do not fit;
algorithms of other families refuse both, and name them by their kinds. -/
theorem public_half_of_scalar {curve : Curve} {octets : Octets} {key : Key}
    (hkey : Key.ofEcdsaScalar curve octets = .ok key) :
    ∃ (pair : Ecdsa.SigningKey) (x y : Nat) (other : Key), key = .ecdsa (.signing pair) ∧
      pair = ⟨curve, Octets.toNat octets⟩ ∧ pair.point = .affine x y ∧
      Key.ofEcdsaPoint curve (Octets.ofNat curve.fieldSize x) (Octets.ofNat curve.fieldSize y) =
        .ok other ∧
      ∀ input signature : Octets,
        (∀ algorithm hash expected,
          (Scheme.ecdsa algorithm hash expected).verify key input signature =
            (Scheme.ecdsa algorithm hash expected).verify other input signature) ∧
        (∀ hash, (Algorithm.signing .ecdsa hash).check key input signature =
          (Algorithm.signing .ecdsa hash).check other input signature) ∧
        Algorithm.none.check key input signature = Algorithm.none.check other input signature ∧
        (∀ hash,
          (Algorithm.signing .symmetric hash).check key input signature =
              .error (.keyTypeMismatch "HMAC" "Symmetric" "ECDSA signing") ∧
            (Algorithm.signing .symmetric hash).check other input signature =
              .error (.keyTypeMismatch "HMAC" "Symmetric" "ECDSA verifying")) ∧
        (∀ hash,
          (Algorithm.signing .rsa hash).check key input signature =
              .error (.keyTypeMismatch "RSA" "RSA" "ECDSA signing") ∧
            (Algorithm.signing .rsa hash).check other input signature =
              .error (.keyTypeMismatch "RSA" "RSA" "ECDSA verifying")) ∧
        ∀ algorithm : Algorithm, (algorithm.verify key input signature).value =
          (algorithm.verify other input signature).value := by
  obtain ⟨_, ⟨hpos, hlt⟩, rfl⟩ := (Key.ofEcdsaScalar_eq_ok_iff _ _ _).mp hkey
  obtain ⟨x, y, hpoint, hx, hy, hsatisfies⟩ :=
    Ecdsa.exists_point ⟨curve, Octets.toNat octets⟩ hpos hlt
  have hsame : (Ecdsa.Key.signing ⟨curve, Octets.toNat octets⟩).SameHalf
      (.verifying ⟨curve, x, y⟩) := ⟨rfl, hpoint⟩
  refine ⟨_, x, y, _, rfl, rfl, hpoint, Key.ofEcdsaPoint_ofNat hx hy hsatisfies,
    fun input signature => ⟨fun algorithm hash expected => ?_, fun hash => ?_, rfl, fun hash => ?_,
      fun hash => ?_, fun algorithm => ?_⟩⟩
  · exact Scheme.verify_ecdsa_congr hsame algorithm hash expected input signature
  · rw [Algorithm.check_ecdsa, Algorithm.check_ecdsa, Scheme.verify_ecdsa_congr hsame]
  · exact ⟨Algorithm.check_symmetric_ecdsa _ _ _ _, Algorithm.check_symmetric_ecdsa _ _ _ _⟩
  · exact ⟨Algorithm.check_rsa_ecdsa _ _ _ _, Algorithm.check_rsa_ecdsa _ _ _ _⟩
  · exact Algorithm.value_verify_congr hsame algorithm input signature

/-- On the widest curve the scalar one and the base refuse the empty signature alike. -/
theorem public_half_of_unit_scalar : ∃ (x y : Nat) (key other : Key),
    Key.ofEcdsaScalar .p521 [1] = .ok key ∧ Curve.base .p521 = .affine x y ∧
      Key.ofEcdsaPoint .p521 (Octets.ofNat 66 x) (Octets.ofNat 66 y) = .ok other ∧
      (Algorithm.signing .ecdsa .sha512).check key [] [] = .error .signatureInvalid ∧
      (Algorithm.signing .ecdsa .sha512).check other [] [] = .error .signatureInvalid := by
  have hkey : Key.ofEcdsaScalar .p521 [1] = .ok (.ecdsa (.signing ⟨.p521, 1⟩)) := by
    decide +kernel
  obtain ⟨pair, x, y, other, hpair, _, hpoint, hother, hchecks⟩ := public_half_of_scalar hkey
  cases hpair
  have hbase : Curve.base .p521 = .affine x y := by
    rw [← hpoint]
    decide +kernel
  obtain ⟨_, hcheck, _⟩ := hchecks [] []
  have hrefused : (Algorithm.signing .ecdsa .sha512).check (.ecdsa (.signing ⟨.p521, 1⟩)) [] [] =
      .error .signatureInvalid := by
    decide +kernel
  exact ⟨x, y, _, other, hkey, hbase, hother, hrefused, (hcheck .sha512).symm.trans hrefused⟩

/-- An algorithm that takes secrets refuses a scalar and its point with different errors. -/
theorem kinds_of_unit_scalar : ∃ (x y : Nat) (key other : Key),
    Key.ofEcdsaScalar .p256 [1] = .ok key ∧
      Ecdsa.SigningKey.point ⟨.p256, 1⟩ = .affine x y ∧
      Key.ofEcdsaPoint .p256 (Octets.ofNat 32 x) (Octets.ofNat 32 y) = .ok other ∧
      (Algorithm.signing .symmetric .sha256).check key [] [] ≠
        (Algorithm.signing .symmetric .sha256).check other [] [] := by
  obtain ⟨x, y, hpoint, hx, hy, hsatisfies⟩ :=
    Ecdsa.exists_point ⟨.p256, 1⟩ (by decide) (by decide)
  refine ⟨x, y, .ecdsa (.signing ⟨.p256, 1⟩), _, by decide +kernel, hpoint,
    Key.ofEcdsaPoint_ofNat hx hy hsatisfies, ?_⟩
  intro hrefusals
  rw [Algorithm.check_symmetric_ecdsa, Algorithm.check_symmetric_ecdsa] at hrefusals
  injection hrefusals with hcauses
  injection hcauses with _ _ hkinds
  exact absurd hkinds (show "ECDSA signing" ≠ "ECDSA verifying" by decide)

end WebToken
