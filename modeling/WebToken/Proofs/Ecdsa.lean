import WebToken.Proofs.Curve.Order
import WebToken.Proofs.Octets
import WebToken.Proofs.Verification

/-! Signatures on curves verify. The base generates a group of prime order, in which nonces and scalars
have inverses, so that what verification computes is the point of the nonce. -/

namespace WebToken

namespace Curve

theorem order_lt (curve : Curve) : curve.order < 256 ^ curve.fieldSize := by
  cases curve <;> decide +kernel

theorem fieldPrime_lt (curve : Curve) : curve.fieldPrime < 256 ^ curve.fieldSize := by
  cases curve <;> decide +kernel

end Curve

namespace Ecdsa

/-- A signature of the digest that the key makes with some nonce. -/
def SigningKey.Signs (key : SigningKey) (digest signature : Octets) : Prop :=
  ∃ covered nonce, coveredDigest key.curve digest = some covered ∧
    key.signWith nonce covered = some signature

theorem signs_of_sign {key : SigningKey} {digest signature : Octets}
    (h : key.sign digest = some signature) : key.Signs digest signature := by
  simp only [SigningKey.sign, Option.bind_eq_bind, Option.bind_eq_some_iff] at h
  obtain ⟨covered, hcovered, nonce, _, hsign⟩ := h
  exact ⟨covered, nonce, hcovered, hsign⟩

/-- A signature has two scalars, made of the point of the nonce and of its inverse. -/
theorem eq_of_signWith {key : SigningKey} {nonce : Nat} {covered signature : Octets}
    (h : key.signWith nonce covered = some signature) :
    ∃ x y inverse r s, key.curve.mul nonce key.curve.base = .affine x y ∧
      Modular.inverse? nonce key.curve.order = some inverse ∧ r = x % key.curve.order ∧
      s = inverse * (Octets.toNat covered + r * key.scalar) % key.curve.order ∧ 0 < r ∧ 0 < s ∧
      signature = writeScalars key.curve r s := by
  simp only [SigningKey.signWith] at h
  split at h
  · rename_i x y inverse hpoint hinverse
    split at h
    · cases h
    · rename_i hnonzero
      cases h
      push Not at hnonzero
      exact ⟨x, y, inverse, _, _, hpoint, hinverse, rfl, rfl, Nat.pos_of_ne_zero hnonzero.1,
        Nat.pos_of_ne_zero hnonzero.2, rfl⟩
  · cases h

/-- Scalars below the order are read as they were written. -/
theorem readScalars_writeScalars {curve : Curve} {r s : Nat} (hr : 0 < r) (hrOrder : r < curve.order)
    (hs : 0 < s) (hsOrder : s < curve.order) :
    readScalars curve (writeScalars curve r s) = some (r, s) := by
  have hrLength := Octets.length_ofNat curve.fieldSize r
  have hsLength := Octets.length_ofNat curve.fieldSize s
  have hrRead : Octets.toNat ((writeScalars curve r s).take curve.fieldSize) = r := by
    rw [writeScalars, List.take_left' hrLength, Octets.toNat_ofNat,
      Nat.mod_eq_of_lt (hrOrder.trans curve.order_lt)]
  have hsRead : Octets.toNat ((writeScalars curve r s).drop curve.fieldSize) = s := by
    rw [writeScalars, List.drop_left' hrLength, Octets.toNat_ofNat,
      Nat.mod_eq_of_lt (hsOrder.trans curve.order_lt)]
  have hlength : (writeScalars curve r s).length = 2 * curve.fieldSize := by
    rw [writeScalars, List.length_append, hrLength, hsLength, Nat.two_mul]
  rw [readScalars, if_neg (not_not_intro hlength)]
  simp only [hrRead, hsRead]
  exact if_pos ⟨hr, hrOrder, hs, hsOrder⟩

/-- Below a prime every positive number has an inverse. -/
theorem exists_inverse {curve : Curve} {value : Nat} (hpos : 0 < value) (hlt : value < curve.order) :
    ∃ inverse, Modular.inverse? value curve.order = some inverse ∧
      inverse * value ≡ 1 [MOD curve.order] := by
  have hcoprime : Nat.Coprime value curve.order :=
    (Nat.coprime_of_lt_prime hpos.ne' hlt curve.prime_order).symm
  obtain ⟨inverse, hinverse⟩ :=
    Option.isSome_iff_exists.mp ((Modular.isSome_inverse?_iff _ _).mpr hcoprime)
  exact ⟨inverse, hinverse, Modular.mul_modEq_one_of_inverse? curve.prime_order.pos hinverse⟩

/-- What verification multiplies the base by, all in all, is the nonce. -/
theorem nonce_modEq {order nonce inverse z r s scalar w : Nat} (hinverse : inverse * nonce ≡ 1 [MOD order])
    (hs : s = inverse * (z + r * scalar) % order) (hw : w * s ≡ 1 [MOD order]) :
    z * w % order + r * w % order * scalar ≡ nonce [MOD order] := by
  have hsum : nonce * s ≡ z + r * scalar [MOD order] := by
    calc nonce * s
        ≡ nonce * (inverse * (z + r * scalar)) [MOD order] := by
          rw [hs]
          exact (Nat.mod_modEq _ _).mul_left _
      _ = inverse * nonce * (z + r * scalar) := by ring
      _ ≡ 1 * (z + r * scalar) [MOD order] := hinverse.mul_right _
      _ = z + r * scalar := Nat.one_mul _
  calc z * w % order + r * w % order * scalar
      ≡ z * w + r * w * scalar [MOD order] :=
        (Nat.mod_modEq _ _).add ((Nat.mod_modEq _ _).mul_right _)
    _ = w * (z + r * scalar) := by ring
    _ ≡ w * (nonce * s) [MOD order] := hsum.symm.mul_left _
    _ = w * s * nonce := by ring
    _ ≡ 1 * nonce [MOD order] := hw.mul_right _
    _ = nonce := Nat.one_mul _

/-- A signature with whatever nonce verifies under the point of the key. -/
theorem verifies_of_signs {key : SigningKey} {digest signature : Octets}
    (h : key.Signs digest signature) : verifies key.curve key.point digest signature = true := by
  obtain ⟨covered, nonce, hcovered, hsign⟩ := h
  obtain ⟨x, y, inverse, r, s, hpoint, hinverse, hr, hs, hrPos, hsPos, rfl⟩ := eq_of_signWith hsign
  obtain ⟨generator, hbase, horder⟩ := key.curve.exists_generator
  have hpos : 0 < key.curve.order := key.curve.prime_order.pos
  have hrLt : r < key.curve.order := hr ▸ Nat.mod_lt _ hpos
  have hsLt : s < key.curve.order := hs ▸ Nat.mod_lt _ hpos
  obtain ⟨w, hw, hwOne⟩ := exists_inverse hsPos hsLt
  have hnonce := nonce_modEq (Modular.mul_modEq_one_of_inverse? hpos hinverse) hs hwOne
  have hsum : key.curve.add
      (key.curve.mul (Octets.toNat covered * w % key.curve.order) key.curve.base)
      (key.curve.mul (r * w % key.curve.order) key.point) = .affine x y := by
    rw [← hpoint]
    refine (Curve.represents_add (Curve.represents_mul _ hbase) (Curve.represents_mul _
      (Curve.represents_mul key.scalar hbase))).eq (Curve.represents_mul nonce hbase) ?_
    rw [← mul_nsmul', ← add_nsmul, nsmul_eq_nsmul_iff_modEq, horder]
    exact hnonce
  rw [verifies, readScalars_writeScalars hrPos hrLt hsPos hsLt, hcovered]
  simp only [hw, hsum, ← hr, beq_self_eq_true]

/-- A scalar below the order has an affine point, on the curve. -/
theorem exists_point (key : SigningKey) (hpos : 0 < key.scalar) (hlt : key.scalar < key.curve.order) :
    ∃ x y, key.point = .affine x y ∧ x < key.curve.fieldPrime ∧ y < key.curve.fieldPrime ∧
      key.curve.satisfies x y = true := by
  obtain ⟨generator, hbase, horder⟩ := key.curve.exists_generator
  have hpoint := Curve.represents_mul key.scalar hbase
  have hne : key.scalar • generator ≠ 0 := by
    intro hzero
    have hdvd := addOrderOf_dvd_of_nsmul_eq_zero hzero
    rw [horder] at hdvd
    exact absurd (Nat.le_of_dvd hpos hdvd) (Nat.not_le_of_lt hlt)
  exact hpoint.exists_affine hne

theorem length_of_signs {key : SigningKey} {digest signature : Octets}
    (h : key.Signs digest signature) : signature.length = 2 * key.curve.fieldSize := by
  obtain ⟨_, _, _, hsign⟩ := h
  exact length_of_signWith hsign

end Ecdsa

/-- Coordinates that are written at the width of the field make a key. -/
theorem Key.ofEcdsaPoint_ofNat {curve : Curve} {x y : Nat} (hx : x < curve.fieldPrime)
    (hy : y < curve.fieldPrime) (h : curve.satisfies x y = true) :
    ofEcdsaPoint curve (Octets.ofNat curve.fieldSize x) (Octets.ofNat curve.fieldSize y) =
      .ok (.ecdsa (.verifying ⟨curve, x, y⟩)) := by
  have hspell : ∀ {value : Nat}, value < curve.fieldPrime →
      Octets.toNat (Octets.ofNat curve.fieldSize value) = value := by
    intro value hvalue
    rw [Octets.toNat_ofNat, Nat.mod_eq_of_lt (hvalue.trans curve.fieldPrime_lt)]
  rw [ofEcdsaPoint_eq_ok_iff, hspell hx, hspell hy]
  exact ⟨(Octets.length_ofNat _ _).le, (Octets.length_ofNat _ _).le, ⟨hx, hy, h⟩, rfl⟩

namespace Algorithm

variable {hash : Hash} {input : Octets}

theorem verify_ecdsa_iff (hash : Hash) {key : Ecdsa.Key} (hcurve : key.curve = curveFor hash)
    (input signature : Octets) :
    ((signing .ecdsa hash).verify (.ecdsa key) input signature).value = true ↔
      Ecdsa.verifies (curveFor hash) key.point (hash.digest input) signature = true := by
  rw [verify_eq_true_iff, check_ecdsa, Scheme.verify_ecdsa, Scheme.checkCurve, if_pos hcurve]
  change Scheme.accept _ = .ok () ↔ _
  rw [Scheme.accept]
  split <;> simp_all

theorem signs_of_sign_ecdsa {pair : Ecdsa.SigningKey} {signature : Signature}
    (h : ((signing .ecdsa hash).sign (.ecdsa (.signing pair)) input).run.value = .ok signature) :
    pair.Signs (hash.digest input) signature.octets := by
  obtain ⟨scheme, hscheme, hsign⟩ := (sign_eq_ok_iff _ _).mp h
  cases hscheme
  rw [Scheme.sign_scalar] at hsign
  obtain ⟨_, _, hsign⟩ := bind_eq_ok_iff.mp hsign
  split at hsign
  · rename_i octets hoctets
    rw [← (BoundedOctets.ofOctets_eq_ok_iff _ _).mp hsign]
    exact Ecdsa.signs_of_sign hoctets
  · cases hsign

end Algorithm

/-- A private scalar of the algorithm's curve has a point that makes a key for verification; and what the
scalar signs, with the nonce that is derived or with any other, has the length of two field elements and
verifies, under the scalar as under the point. -/
theorem verify_of_sign_ecdsa {hash : Hash} {octets : Octets} {key : Key}
    (hkey : Key.ofEcdsaScalar (Algorithm.curveFor hash) octets = .ok key) :
    ∃ pair x y, key = .ecdsa (.signing pair) ∧ pair.point = .affine x y ∧
      Key.ofEcdsaPoint (Algorithm.curveFor hash)
        (Octets.ofNat (Algorithm.curveFor hash).fieldSize x)
        (Octets.ofNat (Algorithm.curveFor hash).fieldSize y) =
          .ok (.ecdsa (.verifying ⟨Algorithm.curveFor hash, x, y⟩)) ∧
      ∀ input signature : Octets,
        ((∃ made : Signature, made.octets = signature ∧
            ((Algorithm.signing .ecdsa hash).sign key input).run.value = .ok made) ∨
          pair.Signs (hash.digest input) signature) →
        signature.length = 2 * (Algorithm.curveFor hash).fieldSize ∧
          ((Algorithm.signing .ecdsa hash).verify key input signature).value = true ∧
          ((Algorithm.signing .ecdsa hash).verify
            (.ecdsa (.verifying ⟨Algorithm.curveFor hash, x, y⟩)) input signature).value = true := by
  obtain ⟨scalar, hpos, hlt, rfl⟩ := Key.eq_of_ofEcdsaScalar hkey
  obtain ⟨x, y, hpoint, hx, hy, hsatisfies⟩ :=
    Ecdsa.exists_point ⟨Algorithm.curveFor hash, scalar⟩ hpos hlt
  refine ⟨_, x, y, rfl, hpoint, Key.ofEcdsaPoint_ofNat hx hy hsatisfies, ?_⟩
  intro input signature hsignature
  have hsigns : (Ecdsa.SigningKey.mk (Algorithm.curveFor hash) scalar).Signs (hash.digest input)
      signature := by
    rcases hsignature with ⟨made, rfl, hmade⟩ | hsigns
    · exact Algorithm.signs_of_sign_ecdsa hmade
    · exact hsigns
  have hverifies := Ecdsa.verifies_of_signs hsigns
  refine ⟨Ecdsa.length_of_signs hsigns, (Algorithm.verify_ecdsa_iff hash rfl _ _).mpr hverifies,
    (Algorithm.verify_ecdsa_iff hash rfl _ _).mpr ?_⟩
  rw [hpoint] at hverifies
  exact hverifies

/-- The scalar one signs the empty message with the nonce one, and its point is the base. -/
theorem verify_of_unit_scalar : ∃ (x y : Nat) (signature : Octets),
    Key.ofEcdsaScalar .p256 [1] = .ok (.ecdsa (.signing ⟨.p256, 1⟩)) ∧
      Curve.base .p256 = .affine x y ∧
      (Ecdsa.SigningKey.mk .p256 1).Signs (Hash.sha256.digest []) signature ∧
      signature.length = 64 ∧
      ((Algorithm.signing .ecdsa .sha256).verify (.ecdsa (.signing ⟨.p256, 1⟩)) []
        signature).value = true ∧
      ((Algorithm.signing .ecdsa .sha256).verify (.ecdsa (.verifying ⟨.p256, x, y⟩)) []
        signature).value = true := by
  have hkey : Key.ofEcdsaScalar (Algorithm.curveFor .sha256) [1] =
      .ok (.ecdsa (.signing ⟨.p256, 1⟩)) := by decide +kernel
  obtain ⟨pair, x, y, hpair, hpoint, _, hverify⟩ := verify_of_sign_ecdsa hkey
  cases hpair
  have hbase : Curve.base .p256 = .affine x y := by
    rw [← hpoint]
    decide +kernel
  have hsome : ((Ecdsa.coveredDigest .p256 (Hash.sha256.digest [])).bind
      ((Ecdsa.SigningKey.mk .p256 1).signWith 1)).isSome = true := by decide +kernel
  obtain ⟨signature, hsignature⟩ := Option.isSome_iff_exists.mp hsome
  obtain ⟨covered, hcovered, hsign⟩ := Option.bind_eq_some_iff.mp hsignature
  have hsigns : (Ecdsa.SigningKey.mk .p256 1).Signs (Hash.sha256.digest []) signature :=
    ⟨covered, 1, hcovered, hsign⟩
  obtain ⟨hlength, hscalar, hother⟩ := hverify [] signature (Or.inr hsigns)
  exact ⟨x, y, signature, hkey, hbase, hsigns, hlength, hscalar, hother⟩

end WebToken
