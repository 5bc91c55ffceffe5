import WebToken.Proofs.Verification

/-! Which private keys with two factors are accepted: those whose public half is, and whose exponents are
inverse to each other modulo each factor less one. Values for evaluation modulo the factors have to be
the right ones, and never change the key. -/

namespace WebToken

namespace Rsa

/-! ### Numbers that fit -/

/-- Both factors of an odd modulus are odd, so that one is a remainder by each of them less one. -/
theorem two_lt_of_mul_eq {key : PublicKey} (hcheck : key.check = .ok ()) {p q : Nat} (hp : 1 < p)
    (hq : 1 < q) (h : p * q = key.modulus) : 2 < p ∧ 2 < q := by
  obtain ⟨_, hodd, _⟩ := key.check_eq_ok_iff.mp hcheck
  rw [← h, ← Nat.odd_iff, Nat.odd_mul, Nat.odd_iff, Nat.odd_iff] at hodd
  omega

theorem modEq_one_iff {value modulus : Nat} (h : 1 < modulus) :
    value ≡ 1 [MOD modulus] ↔ value % modulus = 1 := by
  rw [Nat.ModEq, Nat.mod_eq_of_lt h]

/-- The limits for signing are those for verification, although one counts octets and the other
counts bits. -/
theorem fits_iff (key : PublicKey) (privateExponent p q : Nat) :
    Fits key privateExponent p q ↔
      PublicKey.build key.modulus key.exponent = .ok key ∧ p * q = key.modulus ∧ 1 < p ∧ 1 < q ∧
        privateExponent * key.exponent ≡ 1 [MOD p - 1] ∧
        privateExponent * key.exponent ≡ 1 [MOD q - 1] := by
  rw [PublicKey.build_eq_ok_iff]
  constructor
  · intro h
    obtain ⟨hp, hq⟩ := two_lt_of_mul_eq h.check h.one_lt_p h.one_lt_q h.mul_eq
    have hbits := (Octets.bitLength_le key.modulus).trans h.size_le
    exact ⟨⟨hbits, rfl, h.check⟩, h.mul_eq, h.one_lt_p, h.one_lt_q,
      (modEq_one_iff (Nat.lt_sub_of_add_lt hp)).mpr h.exponentP,
      (modEq_one_iff (Nat.lt_sub_of_add_lt hq)).mpr h.exponentQ⟩
  · rintro ⟨⟨hbits, _, hcheck⟩, hproduct, hp, hq, hexponentP, hexponentQ⟩
    obtain ⟨hpLarge, hqLarge⟩ := two_lt_of_mul_eq hcheck hp hq hproduct
    -- The limit is a whole number of octets, which rounding up to octets does not exceed.
    have hsize : 8 * key.size ≤ modulusLimit := by
      rw [PublicKey.size, Octets.byteLength]
      rw [modulusLimit] at hbits ⊢
      omega
    exact ⟨hcheck, hp, hq, hproduct, (modEq_one_iff (Nat.lt_sub_of_add_lt hpLarge)).mp hexponentP,
      (modEq_one_iff (Nat.lt_sub_of_add_lt hqLarge)).mp hexponentQ, hsize⟩

/-- Numbers that fit make a key when the factors have no common divisor. -/
theorem exists_ofFactors_iff (components : Components) (p q : Nat) :
    (∃ key, PrivateKey.ofFactors components p q none = .ok key) ↔
      Fits ⟨components.modulus, components.exponent⟩ components.privateExponent p q ∧
        p.Coprime q := by
  rw [Nat.coprime_comm, ← Modular.isSome_inverse?_iff]
  constructor
  · rintro ⟨key, h⟩
    obtain ⟨hfits, ⟨coefficient, hcoefficient, _⟩, _⟩ := (ofFactors_eq_ok_iff _ _ _ _ _).mp h
    exact ⟨hfits, Option.isSome_iff_exists.mpr ⟨coefficient, hcoefficient⟩⟩
  · rintro ⟨hfits, hinverse⟩
    obtain ⟨coefficient, hcoefficient⟩ := Option.isSome_iff_exists.mp hinverse
    exact ⟨_, (ofFactors_eq_ok_iff _ _ _ _ _).mpr
      ⟨hfits, ⟨coefficient, hcoefficient, rfl⟩, fun _ hnone => nomatch hnone⟩⟩

/-! ### Supplied values -/

theorem checkCrt_eq_ok_iff (factors : Factors) (exponentP exponentQ coefficient : Nat) :
    checkCrt factors (exponentP, exponentQ, coefficient) = .ok () ↔
      exponentP = factors.exponentP ∧ exponentQ = factors.exponentQ ∧
        coefficient < factors.p ∧ coefficient * factors.q % factors.p = 1 := by
  rw [checkCrt]
  split
  · rename_i hexponents
    refine iff_of_false (by rintro ⟨⟩) ?_
    rintro ⟨hp, hq, _⟩
    exact hexponents.elim (fun h => h hp) fun h => h hq
  · rename_i hexponents
    rw [not_or, Decidable.not_not, Decidable.not_not] at hexponents
    split
    · rename_i hcoefficient
      refine iff_of_false (by rintro ⟨⟩) ?_
      rintro ⟨_, _, hlt, hone⟩
      exact hcoefficient.elim (Nat.not_le_of_lt hlt) fun h => h hone
    · rename_i hcoefficient
      rw [not_or, Nat.not_le, Decidable.not_not] at hcoefficient
      exact iff_of_true rfl ⟨hexponents.1, hexponents.2, hcoefficient⟩

/-- Supplied values are only compared. -/
theorem ofFactors_some_eq_ok_iff (components : Components) (p q : Nat) (crt : Nat × Nat × Nat)
    (key : PrivateKey) :
    PrivateKey.ofFactors components p q (some crt) = .ok key ↔
      PrivateKey.ofFactors components p q none = .ok key ∧ checkCrt key.factors crt = .ok () := by
  simp only [ofFactors_eq_ok_iff, Option.mem_def, Option.some_inj, forall_eq', reduceCtorEq,
    false_implies, implies_true, and_true, and_assoc]

/-- A private key as octets spell it, with both factors. -/
def Components.ofOctets (modulus exponent privateExponent p q : Octets)
    (crt : Option (Octets × Octets × Octets)) : Components where
  modulus := Octets.toNat modulus
  exponent := Octets.toNat exponent
  privateExponent := Octets.toNat privateExponent
  primes := some (Octets.toNat p, Octets.toNat q)
  crt := crt.map fun (exponentP, exponentQ, coefficient) =>
    (Octets.toNat exponentP, Octets.toNat exponentQ, Octets.toNat coefficient)

end Rsa

namespace Key

open Octets (toNat)

theorem ofRsaPrivate_eq_ok_iff {components : Rsa.Components} {p q : Nat}
    (h : components.primes = some (p, q)) (key : Key) :
    ofRsaPrivate components = .ok key ↔
      ∃ pair, Rsa.PrivateKey.ofFactors components p q components.crt = .ok pair ∧
        key = .rsa (.privateKey pair) := by
  have hbuild : Rsa.PrivateKey.build components =
      .ofExcept (Rsa.PrivateKey.ofFactors components p q components.crt) := by
    rw [Rsa.PrivateKey.build, h]
  rw [ofRsaPrivate, hbuild]
  cases Rsa.PrivateKey.ofFactors components p q components.crt with
  | ok pair =>
      constructor
      · intro h
        cases h
        exact ⟨pair, rfl, rfl⟩
      · rintro ⟨_, hpair, rfl⟩
        cases hpair
        rfl
  | error fault =>
      refine iff_of_false (by rintro ⟨⟩) ?_
      rintro ⟨_, hpair, _⟩
      cases hpair

theorem exists_ofRsaPrivate_iff {components : Rsa.Components} {p q : Nat}
    (h : components.primes = some (p, q)) (hcrt : components.crt = none) :
    (∃ key, ofRsaPrivate components = .ok key) ↔
      Rsa.Fits ⟨components.modulus, components.exponent⟩ components.privateExponent p q ∧
        p.Coprime q := by
  rw [← Rsa.exists_ofFactors_iff]
  simp only [ofRsaPrivate_eq_ok_iff h, hcrt]
  constructor
  · rintro ⟨_, pair, hpair, _⟩
    exact ⟨pair, hpair⟩
  · rintro ⟨pair, hpair⟩
    exact ⟨_, pair, hpair, rfl⟩

theorem ofRsaPublic_eq_ok_iff (modulus exponent : Octets) (key : Key) :
    ofRsaPublic modulus exponent = .ok key ↔
      Rsa.PublicKey.build (toNat modulus) (toNat exponent) = .ok ⟨toNat modulus, toNat exponent⟩ ∧
        key = .rsa (.publicKey ⟨toNat modulus, toNat exponent⟩) := by
  rw [ofRsaPublic]
  split
  · rename_i found hfound
    obtain ⟨_, rfl, _⟩ := (Rsa.PublicKey.build_eq_ok_iff _ _ _).mp hfound
    rw [Except.ok.injEq]
    exact ⟨fun h => ⟨hfound, h.symm⟩, fun h => h.2.symm⟩
  · rename_i fault hfault
    refine iff_of_false (by rintro ⟨⟩) ?_
    rintro ⟨hbuild, _⟩
    rw [hfault] at hbuild
    cases hbuild

section

variable (modulus exponent privateExponent p q : Octets)

/-- Signing accepts a modulus and an exponent whenever verification does, with every private exponent
and all factors that belong to them, and it accepts no others. The public half of the key is the key for
verification. -/
theorem ofRsaPrivate_iff_ofRsaPublic :
    ((∃ key, ofRsaPrivate (.ofOctets modulus exponent privateExponent p q none) = .ok key) ↔
      (∃ key, ofRsaPublic modulus exponent = .ok key) ∧ toNat p * toNat q = toNat modulus ∧
        1 < toNat p ∧ 1 < toNat q ∧ (toNat p).Coprime (toNat q) ∧
        toNat privateExponent * toNat exponent ≡ 1 [MOD toNat p - 1] ∧
        toNat privateExponent * toNat exponent ≡ 1 [MOD toNat q - 1]) ∧
    ∀ key, ofRsaPrivate (.ofOctets modulus exponent privateExponent p q none) = .ok key →
      ∃ pair, key = .rsa (.privateKey pair) ∧
        ofRsaPublic modulus exponent =
          .ok (.rsa (.publicKey (Rsa.Key.publicHalf (.privateKey pair)))) := by
  have hpublic : (∃ key, ofRsaPublic modulus exponent = .ok key) ↔
      Rsa.PublicKey.build (toNat modulus) (toNat exponent) =
        .ok ⟨toNat modulus, toNat exponent⟩ := by
    simp only [ofRsaPublic_eq_ok_iff, exists_and_left, exists_eq, and_true]
  constructor
  · have hfits := Rsa.fits_iff ⟨toNat modulus, toNat exponent⟩ (toNat privateExponent) (toNat p)
      (toNat q)
    rw [exists_ofRsaPrivate_iff rfl rfl, hpublic]
    show Rsa.Fits ⟨toNat modulus, toNat exponent⟩ (toNat privateExponent) (toNat p) (toNat q) ∧
      (toNat p).Coprime (toNat q) ↔ _
    rw [hfits]
    constructor
    · rintro ⟨⟨hbuild, hproduct, hp, hq, hexponents⟩, hcoprime⟩
      exact ⟨hbuild, hproduct, hp, hq, hcoprime, hexponents⟩
    · rintro ⟨hbuild, hproduct, hp, hq, hcoprime, hexponents⟩
      exact ⟨⟨hbuild, hproduct, hp, hq, hexponents⟩, hcoprime⟩
  · intro key hkey
    obtain ⟨pair, hpair, rfl⟩ := (ofRsaPrivate_eq_ok_iff rfl _).mp hkey
    obtain ⟨hsound, hsame⟩ := Rsa.sound_of_ofFactors hpair
    refine ⟨pair, rfl, (ofRsaPublic_eq_ok_iff _ _ _).mpr ⟨?_, ?_⟩⟩
    · have hbuild := hsound.build_publicKey
      rw [hsame] at hbuild
      exact hbuild
    · rw [Rsa.Key.publicHalf, hsame]
      rfl

end

/-- The largest modulus, whose factors are not prime, makes a private key as it makes a public one. -/
theorem ofRsaPrivate_of_largest_modulus :
    ∃ (modulus privateExponent p q : Octets) (pair : Rsa.PrivateKey),
      Octets.bitLength (toNat modulus) = 8192 ∧ toNat p * toNat q = toNat modulus ∧
        (toNat p).Coprime (toNat q) ∧
        toNat privateExponent * toNat [5] ≡ 1 [MOD toNat p - 1] ∧
        toNat privateExponent * toNat [5] ≡ 1 [MOD toNat q - 1] ∧
        ofRsaPrivate (.ofOctets modulus [5] privateExponent p q none) =
          .ok (.rsa (.privateKey pair)) ∧
        ofRsaPublic modulus [5] = .ok (.rsa (.publicKey pair.toPublicKey)) := by
  have hspell : ∀ {width value : Nat}, value % 256 ^ width = value →
      toNat (Octets.ofNat width value) = value := fun h => (Octets.toNat_ofNat _ _).trans h
  have hp : toNat (Octets.ofNat 512 (2 ^ 4096 - 1)) = 2 ^ 4096 - 1 := hspell (by decide +kernel)
  have hq : toNat (Octets.ofNat 512 (2 ^ 4096 - 3)) = 2 ^ 4096 - 3 := hspell (by decide +kernel)
  have hmodulus : toNat (Octets.ofNat 1024 ((2 ^ 4096 - 1) * (2 ^ 4096 - 3))) =
      (2 ^ 4096 - 1) * (2 ^ 4096 - 3) := hspell (by decide +kernel)
  have hexponent : toNat (Octets.ofNat 1024 (((2 ^ 4096 - 2) * (2 ^ 4095 - 2) + 1) / 5)) =
      ((2 ^ 4096 - 2) * (2 ^ 4095 - 2) + 1) / 5 := hspell (by decide +kernel)
  have hpublic := (ofRsaPublic_eq_ok_iff (Octets.ofNat 1024 ((2 ^ 4096 - 1) * (2 ^ 4096 - 3))) [5]
    _).mpr ⟨(Rsa.PublicKey.build_eq_ok_iff _ _ _).mpr
      ⟨by rw [hmodulus]; decide +kernel, rfl, by rw [hmodulus]; decide +kernel⟩, rfl⟩
  obtain ⟨haccepted, hkeys⟩ := ofRsaPrivate_iff_ofRsaPublic
    (Octets.ofNat 1024 ((2 ^ 4096 - 1) * (2 ^ 4096 - 3))) [5]
    (Octets.ofNat 1024 (((2 ^ 4096 - 2) * (2 ^ 4095 - 2) + 1) / 5))
    (Octets.ofNat 512 (2 ^ 4096 - 1)) (Octets.ofNat 512 (2 ^ 4096 - 3))
  rw [hp, hq, hmodulus, hexponent] at haccepted
  have hcoprime : (2 ^ 4096 - 1 : Nat).Coprime (2 ^ 4096 - 3) := by decide +kernel
  have hexponentP : ((2 ^ 4096 - 2) * (2 ^ 4095 - 2) + 1) / 5 * toNat [5] ≡
      1 [MOD 2 ^ 4096 - 1 - 1] := by decide +kernel
  have hexponentQ : ((2 ^ 4096 - 2) * (2 ^ 4095 - 2) + 1) / 5 * toNat [5] ≡
      1 [MOD 2 ^ 4096 - 3 - 1] := by decide +kernel
  obtain ⟨key, hkey⟩ := haccepted.mpr ⟨⟨_, hpublic⟩, rfl, by decide +kernel, by decide +kernel,
    hcoprime, hexponentP, hexponentQ⟩
  obtain ⟨pair, rfl, hpair⟩ := hkeys key hkey
  refine ⟨_, _, _, _, pair, ?_, ?_, ?_, ?_, ?_, hkey, hpair⟩
  · rw [hmodulus]
    decide +kernel
  · rw [hp, hq, hmodulus]
  · rw [hp, hq]
    exact hcoprime
  · rw [hexponent, hp]
    exact hexponentP
  · rw [hexponent, hq]
    exact hexponentQ

section

variable (modulus exponent privateExponent p q : Octets)

/-- What is known of a private key that is built from both factors. -/
theorem eq_of_ofRsaPrivate_none {key : Key}
    (h : ofRsaPrivate (.ofOctets modulus exponent privateExponent p q none) = .ok key) :
    ∃ coefficient, key = .rsa (.privateKey ⟨⟨toNat modulus, toNat exponent⟩,
        toNat privateExponent, ⟨toNat p, toNat q, toNat privateExponent % (toNat p - 1),
          toNat privateExponent % (toNat q - 1), coefficient⟩⟩) ∧
      Rsa.Fits ⟨toNat modulus, toNat exponent⟩ (toNat privateExponent) (toNat p) (toNat q) := by
  obtain ⟨_, hpair, rfl⟩ := (ofRsaPrivate_eq_ok_iff rfl _).mp h
  obtain ⟨hfits, ⟨coefficient, _, rfl⟩, _⟩ := (Rsa.ofFactors_eq_ok_iff _ _ _ _ _).mp hpair
  exact ⟨coefficient, rfl, hfits⟩

theorem ofRsaPrivate_some_eq_ok_iff (exponentP exponentQ coefficient : Octets) (key : Key) :
    ofRsaPrivate (.ofOctets modulus exponent privateExponent p q
        (some (exponentP, exponentQ, coefficient))) = .ok key ↔
      ofRsaPrivate (.ofOctets modulus exponent privateExponent p q none) = .ok key ∧
        toNat exponentP = toNat privateExponent % (toNat p - 1) ∧
        toNat exponentQ = toNat privateExponent % (toNat q - 1) ∧
        toNat coefficient < toNat p ∧ toNat coefficient * toNat q ≡ 1 [MOD toNat p] := by
  constructor
  · intro h
    obtain ⟨pair, hpair, rfl⟩ := (ofRsaPrivate_eq_ok_iff rfl _).mp h
    obtain ⟨hplain, hcrt⟩ := (Rsa.ofFactors_some_eq_ok_iff _ _ _ _ _).mp hpair
    have hkey : ofRsaPrivate (.ofOctets modulus exponent privateExponent p q none) =
        .ok (.rsa (.privateKey pair)) := (ofRsaPrivate_eq_ok_iff rfl _).mpr ⟨pair, hplain, rfl⟩
    obtain ⟨found, hfound, hfits⟩ := eq_of_ofRsaPrivate_none _ _ _ _ _ hkey
    cases hfound
    obtain ⟨hexponentP, hexponentQ, hlt, hone⟩ := (Rsa.checkCrt_eq_ok_iff _ _ _ _).mp hcrt
    exact ⟨hkey, hexponentP, hexponentQ, hlt, (Rsa.modEq_one_iff hfits.one_lt_p).mpr hone⟩
  · rintro ⟨hkey, hexponentP, hexponentQ, hlt, hone⟩
    obtain ⟨found, rfl, hfits⟩ := eq_of_ofRsaPrivate_none _ _ _ _ _ hkey
    obtain ⟨pair, hplain, hpair⟩ := (ofRsaPrivate_eq_ok_iff rfl _).mp hkey
    cases hpair
    refine (ofRsaPrivate_eq_ok_iff rfl _).mpr ⟨_, ?_, rfl⟩
    refine (Rsa.ofFactors_some_eq_ok_iff _ _ _ _ _).mpr ⟨hplain, ?_⟩
    exact (Rsa.checkCrt_eq_ok_iff _ _ _ _).mpr
      ⟨hexponentP, hexponentQ, hlt, (Rsa.modEq_one_iff hfits.one_lt_p).mp hone⟩

/-- Supplied values for evaluation modulo the factors are accepted exactly when they are the right ones
for the factors in their order, and leave the key as it is without them. -/
theorem ofRsaPrivate_crt_iff (exponentP exponentQ coefficient : Octets) :
    ((∃ key, ofRsaPrivate (.ofOctets modulus exponent privateExponent p q
        (some (exponentP, exponentQ, coefficient))) = .ok key) ↔
      (∃ key, ofRsaPrivate (.ofOctets modulus exponent privateExponent p q none) = .ok key) ∧
        toNat exponentP = toNat privateExponent % (toNat p - 1) ∧
        toNat exponentQ = toNat privateExponent % (toNat q - 1) ∧
        toNat coefficient < toNat p ∧ toNat coefficient * toNat q ≡ 1 [MOD toNat p]) ∧
    (∀ key, ofRsaPrivate (.ofOctets modulus exponent privateExponent p q
        (some (exponentP, exponentQ, coefficient))) = .ok key →
      ofRsaPrivate (.ofOctets modulus exponent privateExponent p q none) = .ok key) ∧
    ∀ key, ofRsaPrivate (.ofOctets modulus exponent privateExponent p q none) = .ok key →
      ∃ pair, key = .rsa (.privateKey pair) ∧ pair.modulus = toNat modulus ∧
        pair.exponent = toNat exponent ∧ pair.privateExponent = toNat privateExponent ∧
        pair.factors.p = toNat p ∧ pair.factors.q = toNat q ∧
        toNat p * toNat q = toNat modulus ∧
        toNat privateExponent * toNat exponent ≡ 1 [MOD toNat p - 1] ∧
        toNat privateExponent * toNat exponent ≡ 1 [MOD toNat q - 1] := by
  refine ⟨?_, fun key hkey => ?_, fun key hkey => ?_⟩
  · simp only [ofRsaPrivate_some_eq_ok_iff, exists_and_right]
  · exact ((ofRsaPrivate_some_eq_ok_iff _ _ _ _ _ _ _ _ _).mp hkey).1
  · obtain ⟨coefficient, rfl, hfits⟩ := eq_of_ofRsaPrivate_none _ _ _ _ _ hkey
    obtain ⟨_, hproduct, _, _, hexponents⟩ := (Rsa.fits_iff _ _ _ _).mp hfits
    exact ⟨_, rfl, rfl, rfl, rfl, rfl, rfl, hproduct, hexponents⟩

end

/-- Zeros in front change nothing, and a coefficient beyond the first factor is refused although it
leaves the right remainder. -/
theorem ofRsaPrivate_crt_of_fifteen :
    (∃ key, ofRsaPrivate (.ofOctets [0, 15] [3] [3] [3] [5] (some ([0, 1], [3], [2]))) = .ok key ∧
      ofRsaPrivate (.ofOctets [0, 15] [3] [3] [3] [5] none) = .ok key) ∧
    ¬∃ key, ofRsaPrivate (.ofOctets [0, 15] [3] [3] [3] [5] (some ([0, 1], [3], [5]))) =
      .ok key := by
  have hplain : ∃ key, ofRsaPrivate (.ofOctets [0, 15] [3] [3] [3] [5] none) = .ok key :=
    (exists_ofRsaPrivate_iff rfl rfl).mpr ⟨(Rsa.fits_iff _ _ _ _).mpr
      ⟨rfl, by decide, by decide, by decide, by decide, by decide⟩, by decide⟩
  obtain ⟨haccepted, hsame, _⟩ := ofRsaPrivate_crt_iff [0, 15] [3] [3] [3] [5] [0, 1] [3] [2]
  obtain ⟨hrefused, _⟩ := ofRsaPrivate_crt_iff [0, 15] [3] [3] [3] [5] [0, 1] [3] [5]
  constructor
  · obtain ⟨key, hkey⟩ := haccepted.mpr ⟨hplain, by decide, by decide, by decide, by decide⟩
    exact ⟨key, hkey, hsame key hkey⟩
  · intro h
    obtain ⟨_, _, _, hlt, _⟩ := hrefused.mp h
    revert hlt
    decide

end Key

end WebToken
