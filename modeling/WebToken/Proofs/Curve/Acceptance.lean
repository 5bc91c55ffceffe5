import WebToken.Proofs.Curve.Group
import WebToken.Proofs.Jwk
import WebToken.Proofs.Octets

/-! Which octets make a key on a curve. Only the numbers count that they spell, and how many octets there
are at most: the zeros in front that fill them up to the width of the field change nothing. -/

namespace WebToken

open Octets (toNat)

/-- The equation of the curve, in whole numbers. -/
theorem Curve.satisfies_iff_modEq (curve : Curve) (x y : Nat) :
    curve.satisfies x y = true ↔
      (y : Int) ^ 2 ≡ (x : Int) ^ 3 - 3 * x + curve.constantTerm [ZMOD curve.fieldPrime] := by
  rw [satisfies_iff, nonsingular_iff, ← ZMod.intCast_eq_intCast_iff]
  push_cast
  rfl

namespace Key

variable (curve : Curve)

/-! ### Octets at the width of the field -/

/-- Octets with as many zeros in front as the field has more. -/
def padded (octets : Octets) : Except Error Octets :=
  if curve.fieldSize < octets.length then
    .error (.keyInvalid (.coordinateTooLong curve octets.length))
  else .ok (List.replicate (curve.fieldSize - octets.length) 0 ++ octets)

theorem length_of_padded {octets filled : Octets} (h : padded curve octets = .ok filled) :
    filled.length = curve.fieldSize := by
  rw [padded] at h
  split at h
  · cases h
  · rename_i hfits
    cases h
    rw [List.length_append, List.length_replicate]
    exact Nat.sub_add_cancel (Nat.le_of_not_lt hfits)

theorem coordinate_eq_map_padded (octets : Octets) :
    coordinate curve octets = (padded curve octets).map toNat := by
  rw [coordinate, padded]
  split
  · rfl
  · rw [Except.map, Octets.toNat_replicate_append]

/-- The uncompressed form of a point: a mark, and both coordinates at the width of the field. -/
def framed (x y : Octets) : Octets :=
  0x04 :: (x ++ y)

/-- The point of which octets are the uncompressed form. -/
def readFramed? (octets : Octets) : Option (Nat × Nat) :=
  match octets with
  | 0x04 :: coordinates =>
      let x := toNat (coordinates.take curve.fieldSize)
      let y := toNat (coordinates.drop curve.fieldSize)
      if coordinates.length = 2 * curve.fieldSize ∧ x < curve.fieldPrime ∧
          y < curve.fieldPrime ∧ curve.satisfies x y then some (x, y)
      else none
  | _ => none

/-- The key for verification that is read from the uncompressed form of a point. -/
def ofFramedPoint (xOctets yOctets : Octets) : Except Error Key := do
  let x ← padded curve xOctets
  let y ← padded curve yOctets
  match readFramed? curve (framed x y) with
  | some (x, y) => .ok (.ecdsa (.verifying ⟨curve, x, y⟩))
  | none => .error (.keyInvalid (.pointOffCurve curve))

/-- The key for signing that is read from octets of the width of the field. -/
def ofPaddedScalar (octets : Octets) : Except Error Key := do
  let filled ← padded curve octets
  if 0 < toNat filled ∧ toNat filled < curve.order then
    .ok (.ecdsa (.signing ⟨curve, toNat filled⟩))
  else .error (.keyInvalid (.invalidScalar curve))

theorem readFramed?_framed {x y : Octets} (hx : x.length = curve.fieldSize)
    (hy : y.length = curve.fieldSize) :
    readFramed? curve (framed x y) =
      if toNat x < curve.fieldPrime ∧ toNat y < curve.fieldPrime ∧
          curve.satisfies (toNat x) (toNat y) then some (toNat x, toNat y)
      else none := by
  rw [framed, readFramed?, List.take_left' hx, List.drop_left' hx]
  simp only [List.length_append, hx, hy, ← Nat.two_mul, true_and]

theorem ofEcdsaScalar_eq_padded (octets : Octets) :
    ofEcdsaScalar curve octets = ofPaddedScalar curve octets := by
  rw [ofEcdsaScalar, ofPaddedScalar, coordinate_eq_map_padded]
  cases padded curve octets <;> rfl

theorem ofEcdsaPoint_eq_framed (xOctets yOctets : Octets) :
    ofEcdsaPoint curve xOctets yOctets = ofFramedPoint curve xOctets yOctets := by
  rw [ofEcdsaPoint, ofFramedPoint, coordinate_eq_map_padded, coordinate_eq_map_padded]
  cases hx : padded curve xOctets with
  | error cause => rfl
  | ok x =>
      cases hy : padded curve yOctets with
      | error cause => rfl
      | ok y =>
          show (if _ then _ else _) = (match readFramed? curve (framed x y) with
            | some (x, y) => .ok (.ecdsa (.verifying ⟨curve, x, y⟩))
            | none => .error (.keyInvalid (.pointOffCurve curve)) : Except Error Key)
          rw [readFramed?_framed curve (length_of_padded curve hx) (length_of_padded curve hy)]
          split <;> rfl

/-! ### Keys by value -/

theorem coordinate_congr {left right : Octets} (hleft : left.length ≤ curve.fieldSize)
    (hright : right.length ≤ curve.fieldSize) (h : toNat left = toNat right) :
    coordinate curve left = coordinate curve right := by
  rw [(coordinate_eq_ok_iff _ _ _).mpr ⟨hleft, rfl⟩, (coordinate_eq_ok_iff _ _ _).mpr ⟨hright, rfl⟩,
    h]

theorem coordinate_replicate_append {zeros : Nat} {octets : Octets}
    (h : zeros + octets.length ≤ curve.fieldSize) :
    coordinate curve (List.replicate zeros 0 ++ octets) = coordinate curve octets := by
  apply coordinate_congr
  · rwa [List.length_append, List.length_replicate]
  · exact Nat.le_of_add_left_le h
  · exact Octets.toNat_replicate_append zeros octets

/-- Octets make a key on a curve for the numbers that they spell: a scalar if it is below the order and
not zero, and two coordinates if they are below the prime of the field and satisfy the equation.
Zeros in front are neither needed nor harmful up to the width of the field, as they are filled up to it
before the curve reads them. -/
theorem ecdsa_keys_by_value :
    (∀ octets key, ofEcdsaScalar curve octets = .ok key ↔
      octets.length ≤ curve.fieldSize ∧ 1 ≤ toNat octets ∧ toNat octets ≤ curve.order - 1 ∧
        key = .ecdsa (.signing ⟨curve, toNat octets⟩)) ∧
    (∀ xOctets yOctets key, ofEcdsaPoint curve xOctets yOctets = .ok key ↔
      xOctets.length ≤ curve.fieldSize ∧ yOctets.length ≤ curve.fieldSize ∧
        toNat xOctets < curve.fieldPrime ∧ toNat yOctets < curve.fieldPrime ∧
        (toNat yOctets : Int) ^ 2 ≡ (toNat xOctets : Int) ^ 3 - 3 * toNat xOctets +
          curve.constantTerm [ZMOD curve.fieldPrime] ∧
        key = .ecdsa (.verifying ⟨curve, toNat xOctets, toNat yOctets⟩)) ∧
    (∀ zeros octets, zeros + octets.length ≤ curve.fieldSize →
      ofEcdsaScalar curve (List.replicate zeros 0 ++ octets) = ofEcdsaScalar curve octets) ∧
    (∀ xZeros yZeros xOctets yOctets, xZeros + xOctets.length ≤ curve.fieldSize →
      yZeros + yOctets.length ≤ curve.fieldSize →
      ofEcdsaPoint curve (List.replicate xZeros 0 ++ xOctets) (List.replicate yZeros 0 ++ yOctets) =
        ofEcdsaPoint curve xOctets yOctets) ∧
    (∀ octets cause, ofEcdsaScalar curve octets = .error cause →
      ∃ fault, cause = .keyInvalid fault) ∧
    (∀ xOctets yOctets cause, ofEcdsaPoint curve xOctets yOctets = .error cause →
      ∃ fault, cause = .keyInvalid fault) ∧
    (∀ octets, ofEcdsaScalar curve octets = ofPaddedScalar curve octets) ∧
    ∀ xOctets yOctets, ofEcdsaPoint curve xOctets yOctets = ofFramedPoint curve xOctets yOctets := by
  refine ⟨fun octets key => ?_, fun xOctets yOctets key => ?_, fun zeros octets hfits => ?_,
    fun xZeros yZeros xOctets yOctets hx hy => ?_, ofEcdsaScalar_refuses curve,
    ofEcdsaPoint_refuses curve, ofEcdsaScalar_eq_padded curve, ofEcdsaPoint_eq_framed curve⟩
  · have hrange : 0 < toNat octets ∧ toNat octets < curve.order ↔
        1 ≤ toNat octets ∧ toNat octets ≤ curve.order - 1 := by
      omega
    rw [ofEcdsaScalar_eq_ok_iff, hrange, and_assoc]
  · rw [ofEcdsaPoint_eq_ok_iff, curve.satisfies_iff_modEq]
    simp only [and_assoc]
  · rw [ofEcdsaScalar, ofEcdsaScalar, coordinate_replicate_append curve hfits]
  · rw [ofEcdsaPoint, ofEcdsaPoint, coordinate_replicate_append curve hx,
      coordinate_replicate_append curve hy]

/-- On the widest curve: the unit with and without a zero in front, zero itself, the base, whose first
coordinate is an octet shorter than the field, and a coordinate that has the width of the field and is
not below its prime. -/
theorem ecdsa_keys_of_base :
    ofEcdsaScalar .p521 (List.replicate 1 0 ++ [1]) = .ok (.ecdsa (.signing ⟨.p521, 1⟩)) ∧
    (∃ cause fault, ofEcdsaScalar .p521 [0] = .error cause ∧ cause = .keyInvalid fault) ∧
    ∃ x y, Curve.base .p521 = .affine x y ∧
      ofEcdsaPoint .p521 (List.replicate 1 0 ++ Octets.ofNat 65 x) (List.replicate 0 0 ++
        Octets.ofNat 66 y) = .ok (.ecdsa (.verifying ⟨.p521, x, y⟩)) ∧
      ∃ cause fault, ofEcdsaPoint .p521 (Octets.ofNat 66 (x + Curve.fieldPrime .p521))
        (Octets.ofNat 66 y) = .error cause ∧ cause = .keyInvalid fault := by
  obtain ⟨hscalar, hpoint, hzeros, hpointZeros, hscalarFault, hpointFault, _⟩ :=
    ecdsa_keys_by_value .p521
  refine ⟨?_, ?_, _, _, rfl, ?_, ?_⟩
  · rw [hzeros 1 [1] (by decide)]
    exact (hscalar [1] _).mpr ⟨by decide, by decide, by decide, rfl⟩
  · cases hzero : ofEcdsaScalar .p521 [0] with
    | ok key =>
        obtain ⟨_, hpos, _⟩ := (hscalar _ _).mp hzero
        exact absurd hpos (by decide)
    | error cause =>
        obtain ⟨fault, hfault⟩ := hscalarFault _ _ hzero
        exact ⟨cause, fault, rfl, hfault⟩
  · rw [hpointZeros _ _ _ _ (by decide) (by decide)]
    exact (hpoint _ _ _).mpr ⟨by decide, by decide, by decide +kernel, by decide +kernel,
      by decide +kernel, by decide +kernel⟩
  · cases hlarge : ofEcdsaPoint .p521 _ _ with
    | ok key =>
        obtain ⟨_, _, hlt, _⟩ := (hpoint _ _ _).mp hlarge
        exact absurd hlt (by decide +kernel)
    | error cause =>
        obtain ⟨fault, hfault⟩ := hpointFault _ _ _ hlarge
        exact ⟨cause, fault, rfl, hfault⟩

end Key

end WebToken
