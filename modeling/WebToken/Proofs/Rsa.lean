import WebToken.Proofs.Modular
import WebToken.Proofs.Octets
import WebToken.Proofs.Signature

/-! RSA signatures. What a private key signs its public half verifies, whether or not its factors are
prime. A signature verifies under one hash function only, whatever octets it is checked with. -/

namespace WebToken

theorem Hash.length_injective {left right : Hash} (h : left.length = right.length) :
    left = right := by
  cases left <;> cases right <;> first | rfl | cases h

namespace Rsa

/-! ### Padded digests -/

theorem length_digestHeader (hash : Hash) : (digestHeader hash).length = 19 := by
  cases hash <;> rfl

theorem encodeDigest_eq_some_iff (hash : Hash) (digest : Octets) (size : Nat) (block : Octets) :
    encodeDigest hash digest size = some block ↔
      digest.length + 30 ≤ size ∧
        block = 0x00 :: 0x01 :: (List.replicate (size - digest.length - 22) 0xff ++
          0x00 :: (digestHeader hash ++ digest)) := by
  have hbody : (digestHeader hash ++ digest).length = digest.length + 19 := by
    rw [List.length_append, length_digestHeader, Nat.add_comm]
  have hfill : size - (digest.length + 19) - 3 = size - digest.length - 22 := by omega
  rw [encodeDigest, hbody, hfill]
  split
  · rename_i hshort
    refine iff_of_false (Option.some_ne_none block).symm fun h => ?_
    have hsize := h.1
    omega
  · rename_i hlong
    rw [Option.some_inj]
    exact ⟨fun h => ⟨by omega, h.symm⟩, fun h => h.2.symm⟩

theorem length_of_encodeDigest {hash : Hash} {digest : Octets} {size : Nat} {block : Octets}
    (h : encodeDigest hash digest size = some block) : block.length = size := by
  obtain ⟨hsize, rfl⟩ := (encodeDigest_eq_some_iff _ _ _ _).mp h
  simp only [List.length_cons, List.length_append, List.length_replicate, length_digestHeader]
  omega

/-- How often a filling comes before a mark can be seen. -/
theorem replicate_mark_inj {α : Type} {fill mark : α} (hmark : mark ≠ fill) {left right : Nat}
    {leftRest rightRest : List α}
    (h : List.replicate left fill ++ mark :: leftRest =
      List.replicate right fill ++ mark :: rightRest) : left = right := by
  induction left generalizing right with
  | zero =>
      cases right with
      | zero => rfl
      | succ right => exact absurd (List.head_eq_of_cons_eq h) hmark
  | succ left ih =>
      cases right with
      | zero => exact absurd (List.head_eq_of_cons_eq h).symm hmark
      | succ right =>
          have htail := List.tail_eq_of_cons_eq h
          rw [ih htail]

/-- The padding of a block tells the hash function that its digest is of. -/
theorem hash_eq_of_encodeDigest {left right : Hash} {leftMessage rightMessage : Octets} {size : Nat}
    {block : Octets} (hleft : encodeDigest left (left.digest leftMessage) size = some block)
    (hright : encodeDigest right (right.digest rightMessage) size = some block) : left = right := by
  obtain ⟨hleftSize, hleftBlock⟩ := (encodeDigest_eq_some_iff _ _ _ _).mp hleft
  obtain ⟨hrightSize, hrightBlock⟩ := (encodeDigest_eq_some_iff _ _ _ _).mp hright
  rw [hleftBlock] at hrightBlock
  have hpadding := List.tail_eq_of_cons_eq (List.tail_eq_of_cons_eq hrightBlock)
  have hfill := replicate_mark_inj (by decide) hpadding
  simp only [Hash.length_digest] at hleftSize hrightSize hfill
  apply Hash.length_injective
  omega

/-! ### Signatures -/

theorem PublicKey.verifies_iff (key : PublicKey) (hash : Hash) (message signature : Octets) :
    key.verifies hash message signature = true ↔
      signature.length = key.size ∧ Octets.toNat signature < key.modulus ∧
        encodeDigest hash (hash.digest message) key.size =
          some (Octets.ofNat key.size
            (Modular.pow (Octets.toNat signature) key.exponent key.modulus)) := by
  rw [verifies]
  split
  · rename_i hmisfit
    refine iff_of_false Bool.false_ne_true fun ⟨hlength, hlt, _⟩ => ?_
    rcases hmisfit with hmisfit | hmisfit
    · exact hmisfit hlength
    · exact Nat.not_le_of_lt hlt hmisfit
  · rename_i hfits
    rw [not_or, Decidable.not_not, Nat.not_le] at hfits
    cases hblock : encodeDigest hash (hash.digest message) key.size with
    | none => exact iff_of_false Bool.false_ne_true fun h => nomatch h.2.2
    | some block =>
        rw [beq_iff_eq, Option.some_inj]
        exact ⟨fun h => ⟨hfits.1, hfits.2, h.symm⟩, fun h => h.2.2.symm⟩

/-- A signature verifies under one hash function only, even of different messages. -/
theorem hash_eq_of_verifies {key : PublicKey} {left right : Hash}
    {leftMessage rightMessage signature : Octets}
    (hleft : key.verifies left leftMessage signature = true)
    (hright : key.verifies right rightMessage signature = true) : left = right := by
  obtain ⟨_, _, hleftBlock⟩ := (key.verifies_iff _ _ _).mp hleft
  obtain ⟨_, _, hrightBlock⟩ := (key.verifies_iff _ _ _).mp hright
  exact hash_eq_of_encodeDigest hleftBlock hrightBlock

theorem PrivateKey.sign_eq_ok_iff (key : PrivateKey) (hash : Hash) (message signature : Octets) :
    key.sign hash message = .ok signature ↔
      ∃ block, encodeDigest hash (hash.digest message) key.size = some block ∧
        Modular.pow (key.power (Octets.toNat block)) key.exponent key.modulus =
          Octets.toNat block ∧
        signature = Octets.ofNat key.size (key.power (Octets.toNat block)) := by
  rw [sign]
  cases hblock : encodeDigest hash (hash.digest message) key.size with
  | none =>
      refine iff_of_false (by rintro ⟨⟩) ?_
      rintro ⟨_, h, _⟩
      cases h
  | some block =>
      dsimp only
      split
      · rename_i hchecked
        constructor
        · intro h
          cases h
          exact ⟨block, rfl, hchecked, rfl⟩
        · rintro ⟨_, h, _, hsignature⟩
          cases h
          rw [hsignature]
      · rename_i hfailed
        refine iff_of_false (by rintro ⟨⟩) ?_
        rintro ⟨_, h, hchecked, _⟩
        cases h
        exact hfailed hchecked

/-! ### Public keys -/

theorem PublicKey.check_eq_ok_iff (key : PublicKey) :
    key.check = .ok () ↔ key.exponent < key.modulus ∧ key.modulus % 2 = 1 ∧
      key.exponent % 2 = 1 ∧ 2 ≤ key.exponent ∧ key.exponent < 2 ^ 33 := by
  rw [check]
  constructor
  · intro h
    repeat
      split at h
      · cases h
    simp only [Nat.shiftLeft_eq] at *
    omega
  · rintro ⟨hlt, hodd, hexponent, hsmall, hlarge⟩
    rw [if_neg (by rw [Nat.shiftLeft_eq]; omega), if_neg (by omega), if_neg (by omega),
      if_neg (by omega), if_neg (by rw [Nat.shiftLeft_eq]; omega)]

theorem PublicKey.build_eq_ok_iff (modulus exponent : Nat) (key : PublicKey) :
    PublicKey.build modulus exponent = .ok key ↔
      Octets.bitLength modulus ≤ modulusLimit ∧ key = ⟨modulus, exponent⟩ ∧
        key.check = .ok () := by
  rw [build]
  split
  · rename_i hlong
    refine iff_of_false (by rintro ⟨⟩) ?_
    rintro ⟨hfits, _⟩
    exact Nat.not_le_of_lt hlong hfits
  · rename_i hfits
    dsimp only
    split
    · rename_i fault hcheck
      refine iff_of_false (by rintro ⟨⟩) ?_
      rintro ⟨_, rfl, hok⟩
      rw [hcheck] at hok
      cases hok
    · rename_i hcheck
      constructor
      · intro h
        cases h
        exact ⟨Nat.le_of_not_lt hfits, rfl, hcheck⟩
      · rintro ⟨_, rfl, _⟩
        rfl

/-! ### Private keys -/

/-- What is known of a private key that was built. Nothing says that its factors are prime. -/
structure PrivateKey.Sound (key : PrivateKey) : Prop where
  check : key.toPublicKey.check = .ok ()
  one_lt_p : 1 < key.factors.p
  one_lt_q : 1 < key.factors.q
  mul_eq : key.factors.p * key.factors.q = key.modulus
  size_le : 8 * key.size ≤ modulusLimit

theorem checkFactors_eq_ok_iff (key : PublicKey) (privateExponent p q : Nat) :
    checkFactors key privateExponent p q = .ok () ↔
      1 < p ∧ 1 < q ∧ p * q = key.modulus ∧
        privateExponent * key.exponent % (p - 1) = 1 ∧
        privateExponent * key.exponent % (q - 1) = 1 := by
  rw [checkFactors]
  constructor
  · intro h
    split at h
    · cases h
    · split at h
      · cases h
      · split at h
        · cases h
        · rename_i hprimes hproduct hexponents
          rw [not_or, Nat.not_le, Nat.not_le] at hprimes
          rw [not_or, Decidable.not_not, Decidable.not_not] at hexponents
          exact ⟨hprimes.1, hprimes.2, Decidable.not_not.mp hproduct, hexponents⟩
  · rintro ⟨hp, hq, hproduct, hexponentP, hexponentQ⟩
    rw [if_neg (by omega), if_neg (not_not_intro hproduct),
      if_neg (not_or.mpr ⟨not_not_intro hexponentP, not_not_intro hexponentQ⟩)]

/-- What the numbers of a private key with two factors have to satisfy. -/
structure Fits (key : PublicKey) (privateExponent p q : Nat) : Prop where
  check : key.check = .ok ()
  one_lt_p : 1 < p
  one_lt_q : 1 < q
  mul_eq : p * q = key.modulus
  exponentP : privateExponent * key.exponent % (p - 1) = 1
  exponentQ : privateExponent * key.exponent % (q - 1) = 1
  size_le : 8 * key.size ≤ modulusLimit

/-- Numbers that fit make a key when one factor has an inverse modulo the other. Supplied values for
evaluation modulo the factors are compared with those of the key, and leave it as it is. -/
theorem ofFactors_eq_ok_iff (components : Components) (p q : Nat) (crt : Option (Nat × Nat × Nat))
    (key : PrivateKey) :
    PrivateKey.ofFactors components p q crt = .ok key ↔
      Fits ⟨components.modulus, components.exponent⟩ components.privateExponent p q ∧
        (∃ coefficient, Modular.inverse? q p = some coefficient ∧
          key = ⟨⟨components.modulus, components.exponent⟩, components.privateExponent,
            ⟨p, q, components.privateExponent % (p - 1), components.privateExponent % (q - 1),
              coefficient⟩⟩) ∧
        ∀ supplied ∈ crt, checkCrt key.factors supplied = .ok () := by
  rw [PrivateKey.ofFactors]
  constructor
  · intro h
    obtain ⟨_, hcheck, h⟩ := bind_eq_ok_iff.mp h
    obtain ⟨_, hfactors, h⟩ := bind_eq_ok_iff.mp h
    obtain ⟨hp, hq, hproduct, hexponentP, hexponentQ⟩ := (checkFactors_eq_ok_iff _ _ _ _).mp hfactors
    split at h
    · cases h
    · rename_i hsize
      refine ⟨⟨hcheck, hp, hq, hproduct, hexponentP, hexponentQ, Nat.le_of_not_lt hsize⟩, ?_⟩
      split at h
      · cases h
      · rename_i coefficient hcoefficient
        cases crt with
        | none =>
            cases h
            exact ⟨⟨coefficient, hcoefficient, rfl⟩, fun _ hnone => nomatch hnone⟩
        | some supplied =>
            obtain ⟨_, hsupplied, h⟩ := bind_eq_ok_iff.mp h
            cases h
            refine ⟨⟨coefficient, hcoefficient, rfl⟩, fun _ hsome => ?_⟩
            rw [← Option.some_inj.mp hsome]
            exact hsupplied
  · rintro ⟨hfits, ⟨coefficient, hcoefficient, rfl⟩, hcrt⟩
    refine bind_eq_ok_iff.mpr ⟨(), hfits.check, bind_eq_ok_iff.mpr ⟨(), ?_, ?_⟩⟩
    · exact (checkFactors_eq_ok_iff _ _ _ _).mpr
        ⟨hfits.one_lt_p, hfits.one_lt_q, hfits.mul_eq, hfits.exponentP, hfits.exponentQ⟩
    · rw [if_neg (Nat.not_lt.mpr hfits.size_le), hcoefficient]
      cases crt with
      | none => rfl
      | some supplied => exact bind_eq_ok_iff.mpr ⟨(), hcrt supplied rfl, rfl⟩

theorem sound_of_ofFactors {components : Components} {p q : Nat} {crt : Option (Nat × Nat × Nat)}
    {key : PrivateKey} (h : PrivateKey.ofFactors components p q crt = .ok key) :
    key.Sound ∧ key.toPublicKey = ⟨components.modulus, components.exponent⟩ := by
  obtain ⟨hfits, ⟨coefficient, _, rfl⟩, _⟩ := (ofFactors_eq_ok_iff _ _ _ _ _).mp h
  exact ⟨⟨hfits.check, hfits.one_lt_p, hfits.one_lt_q, hfits.mul_eq, hfits.size_le⟩, rfl⟩

theorem ofFactors_of_build {components : Components} {key : PrivateKey}
    (h : PrivateKey.build components = .built key) :
    ∃ p q crt, PrivateKey.ofFactors components p q crt = .ok key := by
  have hbuilt : ∀ {result : Except Fault PrivateKey}, Building.ofExcept result = .built key →
      result = .ok key := by
    intro result hresult
    cases result with
    | error fault => cases hresult
    | ok found =>
        cases hresult
        rfl
  rw [PrivateKey.build] at h
  split at h
  · exact ⟨_, _, _, hbuilt h⟩
  · split at h
    · exact ⟨_, _, _, hbuilt h⟩
    · cases h
    · cases h

theorem sound_of_build {components : Components} {key : PrivateKey}
    (h : PrivateKey.build components = .built key) :
    key.Sound ∧ key.toPublicKey = ⟨components.modulus, components.exponent⟩ := by
  obtain ⟨p, q, crt, hfactors⟩ := ofFactors_of_build h
  exact sound_of_ofFactors hfactors

namespace PrivateKey

variable {key : PrivateKey}

/-- The numbers of a private key make a public key too. -/
theorem Sound.build_publicKey (h : key.Sound) :
    PublicKey.build key.modulus key.exponent = .ok key.toPublicKey := by
  have hbits := Octets.bitLength_le key.modulus
  exact (PublicKey.build_eq_ok_iff _ _ _).mpr ⟨hbits.trans h.size_le, rfl, h.check⟩

/-- What is put together from the remainders by both factors is below their product. -/
theorem Sound.power_lt (h : key.Sound) (value : Nat) : key.power value < key.modulus := by
  have hp := Nat.lt_of_succ_lt h.one_lt_p
  have hq := Nat.lt_of_succ_lt h.one_lt_q
  have hbyQ := Modular.pow_lt value key.factors.exponentQ hq
  rw [power, ← h.mul_eq]
  generalize Modular.pow value key.factors.exponentQ key.factors.q = byQ at hbyQ ⊢
  generalize (((Modular.pow value key.factors.exponentP key.factors.p : Int) - byQ) %
    key.factors.p).toNat * key.factors.coefficient = product
  have hproduct : product % key.factors.p < key.factors.p := Nat.mod_lt _ hp
  calc byQ + product % key.factors.p * key.factors.q
      < (product % key.factors.p + 1) * key.factors.q := by rw [Nat.succ_mul]; omega
    _ ≤ key.factors.p * key.factors.q := Nat.mul_le_mul_right _ hproduct

/-- The check that ends signing is the one that verification makes. -/
theorem Sound.verifies_of_sign (h : key.Sound) {hash : Hash} {message signature : Octets}
    (hsign : key.sign hash message = .ok signature) :
    key.toPublicKey.verifies hash message signature = true := by
  obtain ⟨block, hblock, hchecked, rfl⟩ := (key.sign_eq_ok_iff _ _ _).mp hsign
  have hlt := h.power_lt (Octets.toNat block)
  have hvalue : Octets.toNat (Octets.ofNat key.size (key.power (Octets.toNat block))) =
      key.power (Octets.toNat block) := by
    rw [Octets.toNat_ofNat]
    exact Nat.mod_eq_of_lt (hlt.trans (Octets.lt_pow_byteLength key.modulus))
  refine (key.toPublicKey.verifies_iff _ _ _).mpr ⟨Octets.length_ofNat _ _, ?_, ?_⟩
  · rw [hvalue]
    exact hlt
  · rw [hvalue, hchecked, hblock, ← length_of_encodeDigest hblock, Octets.ofNat_toNat]

end PrivateKey

end Rsa

end WebToken
