import WebToken.Proofs.Jwk
import WebToken.Proofs.Rsa

/-! What the keys of one document sign and verify. A document verifies what it signed, if its key is a
secret or an RSA key; and a signature verifies under one algorithm only of all that a document has
keys for. -/

namespace WebToken

theorem Family.keyType_injective {left right : Family} (h : left.keyType = right.keyType) :
    left = right := by
  cases left <;> cases right <;> first | rfl | exact absurd h (by decide)

namespace Algorithm

variable {hash : Hash} {secret input : Octets}

theorem curveFor_injective {left right : Hash} (h : curveFor left = curveFor right) :
    left = right := by
  cases left <;> cases right <;> first | rfl | cases h

/-- The algorithms of a family differ in their hash functions. -/
theorem exists_hash_of_family? {algorithm : Algorithm} {family : Family}
    (h : algorithm.family? = some family) : ∃ hash, algorithm = .signing family hash := by
  cases algorithm with
  | none => cases h
  | signing found hash =>
      cases h
      exact ⟨hash, rfl⟩

theorem verify_rsa_iff (hash : Hash) (key : Rsa.Key) (input signature : Octets) :
    ((signing .rsa hash).verify (.rsa key) input signature).value = true ↔
      key.publicHalf.verifies hash input signature = true := by
  rw [verify_eq_true_iff]
  change Scheme.accept (key.publicHalf.verifies hash input signature) = .ok () ↔ _
  rw [Scheme.accept]
  split
  · rename_i hvalid
    exact iff_of_true rfl hvalid
  · rename_i hinvalid
    exact iff_of_false (by rintro ⟨⟩) hinvalid

theorem sign_eq_ok_iff {family : Family} (key : Key) (signature : Signature) :
    ((signing family hash).sign key input).run.value = .ok signature ↔
      ∃ scheme, Scheme.ofAlgorithm (signing family hash) = .ok scheme ∧
        scheme.sign key input = .ok signature := by
  simp only [sign, value_run_bind, value_run_lift, bind_eq_ok_iff]
  refine exists_congr fun scheme => and_congr_right fun _ => ?_
  split
  · rename_i found hfound
    rw [hfound]
    exact Iff.rfl
  · rename_i cause hcause
    rw [hcause]
    exact iff_of_false (by rintro ⟨⟩) (by rintro ⟨⟩)

theorem octets_of_sign_symmetric {signature : Signature}
    (h : ((signing .symmetric hash).sign (.symmetric secret) input).run.value = .ok signature) :
    signature.octets = hash.hmac secret input := by
  obtain ⟨scheme, hscheme, hsign⟩ := (sign_eq_ok_iff _ _).mp h
  cases hscheme
  exact ((BoundedOctets.ofOctets_eq_ok_iff _ _).mp hsign).symm

theorem sign_of_sign_rsa {pair : Rsa.PrivateKey} {signature : Signature}
    (h : ((signing .rsa hash).sign (.rsa (.privateKey pair)) input).run.value = .ok signature) :
    pair.sign hash input = .ok signature.octets := by
  obtain ⟨scheme, hscheme, hsign⟩ := (sign_eq_ok_iff _ _).mp h
  cases hscheme
  obtain ⟨found, hfound, hsign⟩ := bind_eq_ok_iff.mp hsign
  cases hfound
  dsimp only at hsign
  split at hsign
  · rename_i octets hoctets
    rw [hoctets, (BoundedOctets.ofOctets_eq_ok_iff _ _).mp hsign]
  · cases hsign

end Algorithm

/-! ### Signing and then verifying -/

theorem Key.eq_of_ofRsaPrivate {components : Rsa.Components} {key : Key}
    (h : ofRsaPrivate components = .ok key) :
    ∃ pair, Rsa.PrivateKey.build components = .built pair ∧ key = .rsa (.privateKey pair) := by
  rw [ofRsaPrivate] at h
  split at h
  · rename_i pair hpair
    cases h
    exact ⟨pair, hpair, rfl⟩
  · cases h
  · cases h

theorem Jwk.built_of_rsaPrivateKey {jwk : Jwk} {key : Key}
    (h : jwk.rsaPrivateKey.run.value = .ok key) :
    ∃ components pair, jwk.rsaComponents.run.value = .ok components ∧
      Rsa.PrivateKey.build components = .built pair ∧ key = .rsa (.privateKey pair) := by
  simp only [rsaPrivateKey, value_run_bind, value_run_attempt, value_run_lift, bind_eq_ok_iff,
    ofExcept_eq_ok_iff] at h
  obtain ⟨components, hcomponents, hkey⟩ := h
  obtain ⟨pair, hbuilt, rfl⟩ := Key.eq_of_ofRsaPrivate hkey
  exact ⟨components, pair, hcomponents, hbuilt, rfl⟩

/-- The members that make a private key make its public half too. -/
theorem Jwk.rsaPublicKey_of_rsaPrivateKey {jwk : Jwk} {key : Key}
    (h : jwk.rsaPrivateKey.run.value = .ok key) :
    ∃ pair : Rsa.PrivateKey, key = .rsa (.privateKey pair) ∧ pair.Sound ∧
      jwk.rsaPublicKey = .ok (.rsa (.publicKey pair.toPublicKey)) := by
  obtain ⟨components, pair, hcomponents, hbuilt, rfl⟩ := built_of_rsaPrivateKey h
  obtain ⟨hsound, hpublic⟩ := Rsa.sound_of_build hbuilt
  obtain ⟨modulus, exponent, hmodulus, hexponent, hmodulusEq, hexponentEq⟩ :=
    public_of_rsaComponents hcomponents
  have hbuild : Rsa.PublicKey.build (Octets.toNat modulus) (Octets.toNat exponent) =
      .ok pair.toPublicKey := by
    have hnumbers := hsound.build_publicKey
    rw [hpublic, hmodulusEq, hexponentEq] at hnumbers
    rw [hpublic, hmodulusEq, hexponentEq]
    exact hnumbers
  refine ⟨pair, rfl, hsound, ?_⟩
  rw [rsaPublicKey, hmodulus, hexponent]
  change Key.ofRsaPublic modulus exponent = _
  rw [Key.ofRsaPublic, hbuild]

/-- What a document signs it verifies, if its key is a secret or an RSA key. -/
theorem verify_of_sign {document : Json} {family : Family} (hfamily : family ≠ .ecdsa) {hash : Hash}
    {key : Key} (hkey : (signingKey document (.signing family hash)).run.value = .ok key)
    {input : Octets} {signature : Signature}
    (hsign : ((Algorithm.signing family hash).sign key input).run.value = .ok signature) :
    ∃ other, (verifyingKey document (.signing family hash)).run.value = .ok other ∧
      ((Algorithm.signing family hash).verify other input signature.octets).value = true := by
  obtain ⟨jwk, found, hdocument, hfound, hkeyType, hmembers⟩ := (signingKey_eq_ok_iff _ _ _).mp hkey
  obtain rfl : family = found := Option.some.inj hfound
  cases family with
  | symmetric =>
      have hsecret : jwk.symmetricKey = .ok key := (ofExcept_eq_ok_iff _ _).mp hmembers
      refine ⟨key, (verifyingKey_eq_ok_iff _ _ _).mpr
        ⟨jwk, .symmetric, hdocument, rfl, hkeyType, hsecret⟩, ?_⟩
      obtain ⟨secret, _, hmade⟩ := bind_eq_ok_iff.mp hsecret
      cases hmade
      exact (Algorithm.verify_symmetric_iff _ _ _ _).mpr (Algorithm.octets_of_sign_symmetric hsign)
  | rsa =>
      obtain ⟨pair, rfl, hsound, hpublic⟩ := Jwk.rsaPublicKey_of_rsaPrivateKey hmembers
      refine ⟨.rsa (.publicKey pair.toPublicKey), (verifyingKey_eq_ok_iff _ _ _).mpr
        ⟨jwk, .rsa, hdocument, rfl, hkeyType, hpublic⟩, ?_⟩
      exact (Algorithm.verify_rsa_iff _ _ _ _).mpr
        (hsound.verifies_of_sign (Algorithm.sign_of_sign_rsa hsign))
  | ecdsa => exact absurd rfl hfamily

/-! ### One document, one algorithm -/

section

variable {jwk : Jwk} {leftHash rightHash : Hash} {leftKey rightKey : Key}
  {signature leftInput rightInput : Octets}

/-- Keyed hashes of different functions have different lengths, under whatever secrets. -/
theorem hash_eq_of_verify_symmetric (hleftKey : jwk.symmetricKey = .ok leftKey)
    (hrightKey : jwk.symmetricKey = .ok rightKey)
    (hleft : ((Algorithm.signing .symmetric leftHash).verify leftKey leftInput signature).value =
      true)
    (hright : ((Algorithm.signing .symmetric rightHash).verify rightKey rightInput signature).value =
      true) : leftHash = rightHash := by
  obtain ⟨leftSecret, _, hmade⟩ := bind_eq_ok_iff.mp hleftKey
  cases hmade
  obtain ⟨rightSecret, _, hmade⟩ := bind_eq_ok_iff.mp hrightKey
  cases hmade
  have hleftLength := congrArg List.length ((Algorithm.verify_symmetric_iff _ _ _ _).mp hleft)
  have hrightLength := congrArg List.length ((Algorithm.verify_symmetric_iff _ _ _ _).mp hright)
  apply Hash.length_injective
  calc leftHash.length
      = signature.length := by rw [hleftLength, Hash.length_hmac]
    _ = rightHash.length := by rw [hrightLength, Hash.length_hmac]

/-- A document has one RSA key, and under it one block: its padding tells the hash function. -/
theorem hash_eq_of_verify_rsa (hleftKey : jwk.rsaPublicKey = .ok leftKey)
    (hrightKey : jwk.rsaPublicKey = .ok rightKey)
    (hleft : ((Algorithm.signing .rsa leftHash).verify leftKey leftInput signature).value = true)
    (hright : ((Algorithm.signing .rsa rightHash).verify rightKey rightInput signature).value = true) :
    leftHash = rightHash := by
  obtain rfl : leftKey = rightKey := Except.ok.inj (hleftKey.symm.trans hrightKey)
  obtain ⟨modulus, _, hmade⟩ := bind_eq_ok_iff.mp hleftKey
  obtain ⟨exponent, _, hmade⟩ := bind_eq_ok_iff.mp hmade
  rw [Key.ofRsaPublic] at hmade
  split at hmade
  · cases hmade
    exact Rsa.hash_eq_of_verifies ((Algorithm.verify_rsa_iff _ _ _ _).mp hleft)
      ((Algorithm.verify_rsa_iff _ _ _ _).mp hright)
  · cases hmade

/-- A document names one curve, and each curve goes with one hash function. -/
theorem hash_eq_of_ecdsaVerifyingKey
    (hleftKey : jwk.ecdsaVerifyingKey (.signing .ecdsa leftHash) = .ok leftKey)
    (hrightKey : jwk.ecdsaVerifyingKey (.signing .ecdsa rightHash) = .ok rightKey) :
    leftHash = rightHash := by
  obtain ⟨leftCurve, hleftCurve, _⟩ := bind_eq_ok_iff.mp hleftKey
  obtain ⟨rightCurve, hrightCurve, _⟩ := bind_eq_ok_iff.mp hrightKey
  obtain ⟨name, hname, hfound, rfl⟩ := (Jwk.curve_eq_ok_iff _ _ _).mp hleftCurve
  obtain ⟨otherName, hotherName, hotherFound, rfl⟩ := (Jwk.curve_eq_ok_iff _ _ _).mp hrightCurve
  rw [hname] at hotherName
  cases hotherName
  exact Algorithm.curveFor_injective (Except.ok.inj (hfound.symm.trans hotherFound))

end

/-- A document and a signature that verify under two algorithms verify under one: the key type tells
the family, and within it the length of a keyed hash, the padding of an RSA block or the curve of the
key tells the hash function. The messages need not be the same. -/
theorem algorithm_eq_of_verify {document : Json} {signature leftInput rightInput : Octets}
    {left right : Algorithm} {leftKey rightKey : Key}
    (hleftKey : (verifyingKey document left).run.value = .ok leftKey)
    (hrightKey : (verifyingKey document right).run.value = .ok rightKey)
    (hleft : (left.verify leftKey leftInput signature).value = true)
    (hright : (right.verify rightKey rightInput signature).value = true) : left = right := by
  obtain ⟨jwk, family, hdocument, hleftFamily, hkeyType, hleftKey⟩ :=
    (verifyingKey_eq_ok_iff _ _ _).mp hleftKey
  obtain ⟨other, otherFamily, hsame, hrightFamily, hotherType, hrightKey⟩ :=
    (verifyingKey_eq_ok_iff _ _ _).mp hrightKey
  obtain rfl : jwk = other := by
    cases jwk
    cases other
    rw [hdocument] at hsame
    cases hsame
    rfl
  obtain rfl : family = otherFamily := by
    rw [hkeyType] at hotherType
    injection hotherType with hstring
    injection hstring with hname
    exact Family.keyType_injective hname
  obtain ⟨leftHash, rfl⟩ := Algorithm.exists_hash_of_family? hleftFamily
  obtain ⟨rightHash, rfl⟩ := Algorithm.exists_hash_of_family? hrightFamily
  have hhash : leftHash = rightHash := by
    cases family with
    | symmetric => exact hash_eq_of_verify_symmetric hleftKey hrightKey hleft hright
    | rsa => exact hash_eq_of_verify_rsa hleftKey hrightKey hleft hright
    | ecdsa => exact hash_eq_of_ecdsaVerifyingKey hleftKey hrightKey
  rw [hhash]

/-- The secret `a` verifies the keyed hash that it makes of an empty message. -/
theorem algorithm_eq_of_letter_secret :
    ∃ (document : Json) (mac : Octets) (left right : Algorithm),
      document = .object [("kty", .string "oct"), ("k", .string "YQ")] ∧
      mac = Hash.sha256.hmac [97] [] ∧
      (verifyingKey document left).run.value = .ok (.symmetric [97]) ∧
      (verifyingKey document right).run.value = .ok (.symmetric [97]) ∧
      (left.verify (.symmetric [97]) [] mac).value = true ∧
      (right.verify (.symmetric [97]) [] mac).value = true ∧ left = right := by
  have hkey : (verifyingKey (.object [("kty", .string "oct"), ("k", .string "YQ")])
      (.signing .symmetric .sha256)).run.value = .ok (.symmetric [97]) :=
    (verifyingKey_symmetric_iff _ _ _).mpr ⟨_, [97], rfl, rfl, rfl, by decide, by decide, rfl⟩
  have hverify : ((Algorithm.signing .symmetric .sha256).verify (.symmetric [97]) []
      (Hash.sha256.hmac [97] [])).value = true :=
    (Algorithm.verify_symmetric_iff _ _ _ _).mpr rfl
  exact ⟨_, _, _, _, rfl, rfl, hkey, hkey, hverify, hverify,
    algorithm_eq_of_verify hkey hkey hverify hverify⟩

end WebToken
