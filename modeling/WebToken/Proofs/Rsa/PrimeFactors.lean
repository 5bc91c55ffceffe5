import Mathlib.FieldTheory.Finite.Basic
import WebToken.Proofs.Rsa

/-! Keys whose factors are prime. Signing takes the only root of the padded digest modulo the product,
whatever order the factors come in and whatever else the key was built from, so that one signature
verifies and no other. -/

namespace WebToken.Rsa

/-- A power whose exponent leaves one modulo `p - 1` is the number itself modulo a prime `p`. -/
theorem pow_modEq_self {p exponent : Nat} (hp : p.Prime) (h : exponent % (p - 1) = 1)
    (value : Nat) : value ^ exponent ≡ value [MOD p] := by
  have : Fact p.Prime := ⟨hp⟩
  apply (ZMod.natCast_eq_natCast_iff _ _ _).mp
  rw [Nat.cast_pow, ← Nat.div_add_mod exponent (p - 1), h, pow_succ, pow_mul]
  by_cases hzero : (value : ZMod p) = 0
  · rw [hzero, mul_zero]
  · rw [ZMod.pow_card_sub_one_eq_one hzero, one_pow, one_mul]

/-- A product of two primes has no other factors. -/
theorem prime_of_mul_eq {p q left right : Nat} (hp : p.Prime) (hq : q.Prime) (hleft : 1 < left)
    (hright : 1 < right) (h : left * right = p * q) : left.Prime ∧ right.Prime := by
  -- One of the factors is a multiple of `p`, and the other leaves no room for more.
  have hmultiple : ∀ {quotient other : Nat}, 1 < other → p * quotient * other = p * q →
      quotient = 1 ∧ other.Prime := by
    intro quotient other hother hproduct
    rw [Nat.mul_assoc] at hproduct
    have hquotient : quotient * other = q := Nat.eq_of_mul_eq_mul_left hp.pos hproduct
    rcases Nat.prime_mul_iff.mp (hquotient ▸ hq) with ⟨_, hone⟩ | ⟨hprime, hone⟩
    · omega
    · exact ⟨hone, hprime⟩
  rcases hp.dvd_mul.mp (h ▸ Nat.dvd_mul_right p q) with ⟨quotient, rfl⟩ | ⟨quotient, rfl⟩
  · obtain ⟨rfl, hprime⟩ := hmultiple hright h
    rw [Nat.mul_one]
    exact ⟨hp, hprime⟩
  · rw [Nat.mul_comm] at h
    obtain ⟨rfl, hprime⟩ := hmultiple hleft h
    rw [Nat.mul_one]
    exact ⟨hprime, hp⟩

/-- A padded digest starts with a zero octet, and is below every modulus of its length. -/
theorem PublicKey.lt_modulus_of_encodeDigest {key : PublicKey} {hash : Hash} {digest block : Octets}
    (h : encodeDigest hash digest key.size = some block) : Octets.toNat block < key.modulus := by
  have hlength := length_of_encodeDigest h
  obtain ⟨_, hblock⟩ := (encodeDigest_eq_some_iff _ _ _ _).mp h
  obtain ⟨rest, rfl⟩ : ∃ rest, block = 0x00 :: rest := ⟨_, hblock⟩
  calc Octets.toNat (0x00 :: rest) = Octets.toNat rest := rfl
    _ < 256 ^ rest.length := Octets.toNat_lt rest
    _ ≤ key.modulus := Octets.pow_le_of_byteLength hlength.symm

namespace PrivateKey

/-- The reduced exponents undo the public one, and the coefficient undoes the second factor. -/
structure Inverts (key : PrivateKey) : Prop where
  sound : key.Sound
  exponentP : key.factors.exponentP * key.exponent % (key.factors.p - 1) = 1
  exponentQ : key.factors.exponentQ * key.exponent % (key.factors.q - 1) = 1
  coefficient : key.factors.coefficient * key.factors.q ≡ 1 [MOD key.factors.p]

theorem inverts_of_ofFactors {components : Components} {p q : Nat} {crt : Option (Nat × Nat × Nat)}
    {key : PrivateKey} (h : ofFactors components p q crt = .ok key) : key.Inverts := by
  have hsound := (sound_of_ofFactors h).1
  obtain ⟨hfits, ⟨coefficient, hcoefficient, rfl⟩, _⟩ := (ofFactors_eq_ok_iff _ _ _ _ _).mp h
  refine ⟨hsound, ?_, ?_,
    Modular.mul_modEq_one_of_inverse? (Nat.lt_of_succ_lt hfits.one_lt_p) hcoefficient⟩
  · rw [Nat.mod_mul_mod]
    exact hfits.exponentP
  · rw [Nat.mod_mul_mod]
    exact hfits.exponentQ

theorem inverts_of_build {components : Components} {key : PrivateKey}
    (h : build components = .built key) : key.Inverts := by
  obtain ⟨p, q, crt, hfactors⟩ := ofFactors_of_build h
  exact inverts_of_ofFactors hfactors

variable {key : PrivateKey}

/-- The private power has the remainders by both factors that it was put together from. -/
theorem Inverts.power_modEq (h : key.Inverts) (value : Nat) :
    key.power value ≡ value ^ key.factors.exponentP [MOD key.factors.p] ∧
      key.power value ≡ value ^ key.factors.exponentQ [MOD key.factors.q] := by
  rw [power, Modular.pow_eq, Modular.pow_eq]
  generalize hbyP : value ^ key.factors.exponentP % key.factors.p = byP
  generalize hbyQ : value ^ key.factors.exponentQ % key.factors.q = byQ
  generalize hdifference : (((byP : Int) - byQ) % key.factors.p).toNat = difference
  have hmodP : byP ≡ value ^ key.factors.exponentP [MOD key.factors.p] := hbyP ▸ Nat.mod_modEq _ _
  have hmodQ : byQ ≡ value ^ key.factors.exponentQ [MOD key.factors.q] := hbyQ ▸ Nat.mod_modEq _ _
  constructor
  · have hpos : (key.factors.p : Int) ≠ 0 := by
      have hp := h.sound.one_lt_p
      omega
    have hsum : byQ + difference ≡ byP [MOD key.factors.p] := by
      apply Int.natCast_modEq_iff.mp
      rw [Nat.cast_add, ← hdifference, Int.toNat_of_nonneg (Int.emod_nonneg _ hpos)]
      calc (byQ : Int) + (byP - byQ) % key.factors.p
          ≡ byQ + (byP - byQ) [ZMOD key.factors.p] := (Int.mod_modEq _ _).add_left _
        _ = byP := by ring
    refine Nat.ModEq.trans ?_ (hsum.trans hmodP)
    apply Nat.ModEq.add_left
    calc difference * key.factors.coefficient % key.factors.p * key.factors.q
        ≡ difference * key.factors.coefficient * key.factors.q [MOD key.factors.p] :=
          (Nat.mod_modEq _ _).mul_right _
      _ = difference * (key.factors.coefficient * key.factors.q) := Nat.mul_assoc _ _ _
      _ ≡ difference * 1 [MOD key.factors.p] := h.coefficient.mul_left _
      _ = difference := Nat.mul_one _
  · refine Nat.ModEq.trans ?_ hmodQ
    exact Nat.add_mul_modulus_modEq_iff.mpr rfl

/-- The key has no choice of factors. -/
theorem Inverts.prime_factors (h : key.Inverts) {p q : Nat} (hp : p.Prime) (hq : q.Prime)
    (hmodulus : key.modulus = p * q) : key.factors.p.Prime ∧ key.factors.q.Prime :=
  prime_of_mul_eq hp hq h.sound.one_lt_p h.sound.one_lt_q (h.sound.mul_eq.trans hmodulus)

section

variable (h : key.Inverts)
include h

/-- Numbers with one remainder by each factor have one by the product. -/
theorem Inverts.modEq_modulus {left right : Nat} (hp : left ≡ right [MOD key.factors.p])
    (hq : left ≡ right [MOD key.factors.q]) : left ≡ right [MOD key.modulus] := by
  have hcoprime : key.factors.p.Coprime key.factors.q := by
    have hunit := Nat.coprime_of_mul_modEq_one key.factors.coefficient
      (Nat.mul_comm key.factors.coefficient _ ▸ h.coefficient)
    exact hunit.symm
  rw [← h.sound.mul_eq]
  exact (Nat.modEq_and_modEq_iff_modEq_mul hcoprime).mp ⟨hp, hq⟩

variable (hp : key.factors.p.Prime) (hq : key.factors.q.Prime)
include hp hq

/-- The public power undoes the private one. -/
theorem Inverts.power_pow (value : Nat) :
    key.power value ^ key.exponent ≡ value [MOD key.modulus] := by
  obtain ⟨hmodP, hmodQ⟩ := h.power_modEq value
  apply h.modEq_modulus
  · refine (hmodP.pow key.exponent).trans ?_
    rw [← pow_mul]
    exact pow_modEq_self hp h.exponentP value
  · refine (hmodQ.pow key.exponent).trans ?_
    rw [← pow_mul]
    exact pow_modEq_self hq h.exponentQ value

/-- The private power undoes the public one. -/
theorem Inverts.power_of_pow (value : Nat) :
    key.power (value ^ key.exponent % key.modulus) ≡ value [MOD key.modulus] := by
  obtain ⟨hmodP, hmodQ⟩ := h.power_modEq (value ^ key.exponent % key.modulus)
  have hpowP : value ^ key.exponent % key.modulus ≡ value ^ key.exponent [MOD key.factors.p] :=
    (Nat.mod_modEq _ _).of_dvd (h.sound.mul_eq ▸ Nat.dvd_mul_right _ _)
  have hpowQ : value ^ key.exponent % key.modulus ≡ value ^ key.exponent [MOD key.factors.q] :=
    (Nat.mod_modEq _ _).of_dvd (h.sound.mul_eq ▸ Nat.dvd_mul_left _ _)
  apply h.modEq_modulus
  · refine (hmodP.trans (hpowP.pow _)).trans ?_
    rw [← pow_mul, Nat.mul_comm]
    exact pow_modEq_self hp h.exponentP value
  · refine (hmodQ.trans (hpowQ.pow _)).trans ?_
    rw [← pow_mul, Nat.mul_comm]
    exact pow_modEq_self hq h.exponentQ value

/-- A padded digest is the public power of its private power, so that signing never fails but for its
length. -/
theorem Inverts.sign_of_encodeDigest {hash : Hash} {message block : Octets}
    (hblock : encodeDigest hash (hash.digest message) key.size = some block) :
    key.sign hash message = .ok (Octets.ofNat key.size (key.power (Octets.toNat block))) := by
  refine (key.sign_eq_ok_iff _ _ _).mpr ⟨block, hblock, ?_, rfl⟩
  rw [Modular.pow_eq]
  refine Eq.trans ?_ (Nat.mod_eq_of_lt (PublicKey.lt_modulus_of_encodeDigest hblock))
  exact h.power_pow hp hq (Octets.toNat block)

/-- What verifies is what the key signs, and nothing else. -/
theorem Inverts.verifies_iff_sign (hash : Hash) (message signature : Octets) :
    key.toPublicKey.verifies hash message signature = true ↔
      key.sign hash message = .ok signature := by
  refine ⟨fun hverifies => ?_, fun hsign => h.sound.verifies_of_sign hsign⟩
  obtain ⟨hlength, hlt, hblock⟩ := (key.toPublicKey.verifies_iff _ _ _).mp hverifies
  have hfits : Modular.pow (Octets.toNat signature) key.exponent key.modulus < 256 ^ key.size :=
    (Modular.pow_lt _ _ (Nat.zero_lt_of_lt hlt)).trans (Octets.lt_pow_byteLength key.modulus)
  have hroot : key.power (Modular.pow (Octets.toNat signature) key.exponent key.modulus) =
      Octets.toNat signature := by
    refine Nat.ModEq.eq_of_lt_of_lt ?_ (h.sound.power_lt _) hlt
    rw [Modular.pow_eq]
    exact h.power_of_pow hp hq _
  rw [h.sign_of_encodeDigest hp hq hblock, Octets.toNat_ofNat, Nat.mod_eq_of_lt hfits, hroot,
    ← hlength, Octets.ofNat_toNat]

/-- Keys with one public half sign alike, whatever they were built from. -/
theorem Inverts.sign_eq {other : PrivateKey} (hother : other.Inverts)
    (hsame : other.toPublicKey = key.toPublicKey) (hash : Hash) (message : Octets) :
    other.sign hash message = key.sign hash message := by
  obtain ⟨hotherP, hotherQ⟩ := hother.prime_factors hp hq
    ((congrArg PublicKey.modulus hsame).trans h.sound.mul_eq.symm)
  cases hblock : encodeDigest hash (hash.digest message) key.size with
  | none =>
      have hotherBlock : encodeDigest hash (hash.digest message) other.size = none :=
        hsame ▸ hblock
      rw [sign, sign, hblock, hotherBlock]
  | some block =>
      have hsign := h.sign_of_encodeDigest hp hq hblock
      have hverifies : other.toPublicKey.verifies hash message
          (Octets.ofNat key.size (key.power (Octets.toNat block))) = true := by
        rw [hsame]
        exact h.sound.verifies_of_sign hsign
      exact ((hother.verifies_iff_sign hotherP hotherQ _ _ _).mp hverifies).trans hsign.symm

end

end PrivateKey

end WebToken.Rsa
