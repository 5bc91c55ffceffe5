import WebToken.Proofs.Compact
import WebToken.Scheme

/-! The lengths of digests and of signatures. A signature has the length of a digest, of the modulus
or of two scalars, so that none is empty. -/

namespace WebToken

namespace Sha2

theorem length_run (α : Type) [Word α] (initial : List Nat) (message : Octets) :
    (run α initial message).length = 8 * Word.octets α := by
  simp only [run, Registers.toList, List.flatMap_cons, List.flatMap_nil, List.length_append,
    Octets.length_ofNat, List.length_nil]
  omega

end Sha2

namespace Hash

@[simp]
theorem length_digest (hash : Hash) (message : Octets) :
    (hash.digest message).length = hash.length := by
  cases hash with
  | sha256 => exact Sha2.length_run UInt32 _ _
  | sha384 =>
      rw [digest, List.length_take, Sha2.length_run]
      rfl
  | sha512 => exact Sha2.length_run UInt64 _ _

@[simp]
theorem length_hmac (hash : Hash) (secret message : Octets) :
    (hash.hmac secret message).length = hash.length :=
  length_digest hash _

theorem length_pos (hash : Hash) : 0 < hash.length := by
  cases hash <;> decide

end Hash

namespace Rsa

/-- A key that signs is long enough for the padding. -/
theorem length_of_sign {key : PrivateKey} {hash : Hash} {message signature : Octets}
    (h : key.sign hash message = .ok signature) :
    signature.length = key.size ∧ hash.length + 11 ≤ key.size := by
  rw [PrivateKey.sign] at h
  split at h
  · cases h
  · rename_i block hblock
    have hsize : hash.length + 11 ≤ key.size := by
      rw [encodeDigest] at hblock
      split at hblock
      · cases hblock
      · rename_i hfits
        rw [List.length_append, Hash.length_digest] at hfits
        omega
    dsimp only at h
    split at h
    · cases h
      exact ⟨Octets.length_ofNat _ _, hsize⟩
    · cases h

end Rsa

namespace Ecdsa

theorem length_of_signWith {key : SigningKey} {nonce : Nat} {covered signature : Octets}
    (h : key.signWith nonce covered = some signature) :
    signature.length = 2 * key.curve.fieldSize := by
  simp only [SigningKey.signWith] at h
  split at h
  · split at h
    · cases h
    · cases h
      rw [writeScalars, List.length_append, Octets.length_ofNat, Octets.length_ofNat, Nat.two_mul]
  · cases h

theorem length_of_sign {key : SigningKey} {digest signature : Octets}
    (h : key.sign digest = some signature) : signature.length = 2 * key.curve.fieldSize := by
  simp only [SigningKey.sign, Option.bind_eq_bind, Option.bind_eq_some_iff] at h
  obtain ⟨covered, _, nonce, _, hsign⟩ := h
  exact length_of_signWith hsign

end Ecdsa

theorem Curve.fieldSize_pos (curve : Curve) : 0 < curve.fieldSize := by
  cases curve <;> decide

namespace Scheme

theorem sign_scalar (algorithm : Algorithm) (hash : Hash) (expected curve : Curve) (scalar : Nat)
    (input : Octets) :
    (ecdsa algorithm hash expected).sign (.ecdsa (.signing ⟨curve, scalar⟩)) input = (do
      checkCurve algorithm expected curve
      match (Ecdsa.SigningKey.mk curve scalar).sign (hash.digest input) with
      | some signature => BoundedOctets.ofOctets signature
      | none => .error (.signingFailed .ecdsa)) := rfl

theorem verify_ecdsa (algorithm : Algorithm) (hash : Hash) (expected : Curve) (key : Ecdsa.Key)
    (input signature : Octets) :
    (ecdsa algorithm hash expected).verify (.ecdsa key) input signature = (do
      checkCurve algorithm expected key.curve
      accept (Ecdsa.verifies expected key.point (hash.digest input) signature)) := rfl

/-- A signature that was made is not empty. -/
theorem length_pos_of_sign {scheme : Scheme} {key : Key} {input : Octets} {signature : Signature}
    (h : scheme.sign key input = .ok signature) : 0 < signature.length := by
  cases scheme with
  | hmac algorithm hash =>
      obtain ⟨secret, _, h⟩ := bind_eq_ok_iff.mp h
      rw [BoundedOctets.length, ← (BoundedOctets.ofOctets_eq_ok_iff _ _).mp h, Hash.length_hmac]
      exact hash.length_pos
  | rsa algorithm hash =>
      obtain ⟨found, _, h⟩ := bind_eq_ok_iff.mp h
      cases found with
      | publicKey _ => cases h
      | privateKey pair =>
          dsimp only at h
          split at h
          · rename_i octets hsign
            obtain ⟨hlength, hsize⟩ := Rsa.length_of_sign hsign
            rw [BoundedOctets.length, ← (BoundedOctets.ofOctets_eq_ok_iff _ _).mp h]
            omega
          · cases h
  | ecdsa algorithm hash curve =>
      obtain ⟨found, _, h⟩ := bind_eq_ok_iff.mp h
      obtain ⟨_, _, h⟩ := bind_eq_ok_iff.mp h
      cases found with
      | verifying _ => cases h
      | signing pair =>
          dsimp only at h
          split at h
          · rename_i octets hsign
            have hlength := Ecdsa.length_of_sign hsign
            have hfield := pair.curve.fieldSize_pos
            rw [BoundedOctets.length, ← (BoundedOctets.ofOctets_eq_ok_iff _ _).mp h]
            omega
          · cases h

end Scheme

namespace Algorithm

theorem check_ecdsa (hash : Hash) (key : Ecdsa.Key) (input signature : Octets) :
    (signing .ecdsa hash).check (.ecdsa key) input signature =
      (Scheme.ecdsa (signing .ecdsa hash) hash (curveFor hash)).verify (.ecdsa key) input
        signature := rfl

theorem length_pos_of_sign {algorithm : Algorithm} {key : Key} {input : Octets}
    {signature : Signature} (h : (algorithm.sign key input).run.value = .ok signature) :
    0 < signature.length := by
  simp only [sign, value_run_bind, value_run_lift, bind_eq_ok_iff] at h
  obtain ⟨scheme, _, h⟩ := h
  split at h
  · rename_i found hfound
    simp only [value_run_bind, value_run_report] at h
    cases h
    exact Scheme.length_pos_of_sign hfound
  · simp only [value_run_bind, value_run_report] at h
    cases h

end Algorithm

end WebToken
