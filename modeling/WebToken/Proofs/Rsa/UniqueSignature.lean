import Mathlib.NumberTheory.LucasLehmer
import WebToken.Proofs.Rsa.PrimeFactors
import WebToken.Proofs.Verification

/-! Under a document whose modulus is a product of two primes, signing and verification determine each
other: the one signature that verifies is the one that is made, and none is made or verifies where the
modulus is too short for the padding. -/

namespace WebToken

theorem inverts_of_signingKey {document : Json} {hash : Hash} {pair : Rsa.PrivateKey}
    (h : (signingKey document (.signing .rsa hash)).run.value = .ok (.rsa (.privateKey pair))) :
    pair.Inverts := by
  obtain ⟨jwk, family, _, hfamily, _, hmembers⟩ := (signingKey_eq_ok_iff _ _ _).mp h
  cases hfamily
  obtain ⟨components, built, _, hbuilt, hsame⟩ := Jwk.built_of_rsaPrivateKey hmembers
  cases hsame
  exact Rsa.PrivateKey.inverts_of_build hbuilt

namespace Algorithm

variable {hash : Hash} {pair : Rsa.PrivateKey} {input : Octets}

theorem sign_rsa_iff (signature : Signature) :
    ((signing .rsa hash).sign (.rsa (.privateKey pair)) input).run.value = .ok signature ↔
      pair.sign hash input = .ok signature.octets := by
  refine ⟨sign_of_sign_rsa, fun h => (sign_eq_ok_iff _ _).mpr ⟨_, rfl, ?_⟩⟩
  simp only [Scheme.sign, Key.asRsa, bind, Except.bind, h]
  exact (BoundedOctets.ofOctets_eq_ok_iff _ _).mpr rfl

/-- Signing by an RSA key ends as the key does, and reports nothing but its kind. -/
theorem sign_rsa_congr {other : Rsa.PrivateKey}
    (h : ∀ hash, other.sign hash input = pair.sign hash input) (algorithm : Algorithm) :
    algorithm.sign (.rsa (.privateKey other)) input =
      algorithm.sign (.rsa (.privateKey pair)) input := by
  have hscheme : ∀ scheme : Scheme,
      scheme.sign (.rsa (.privateKey other)) input = scheme.sign (.rsa (.privateKey pair)) input := by
    intro scheme
    cases scheme with
    | hmac algorithm hash => rfl
    | rsa algorithm hash => simp only [Scheme.sign, Key.asRsa, bind, Except.bind, h]
    | ecdsa algorithm hash curve => rfl
  simp only [sign, hscheme]
  rfl

/-- A signature of a key that was built fits the buffer for signatures. -/
theorem length_le_of_sign (h : pair.Sound) {octets : Octets}
    (hsign : pair.sign hash input = .ok octets) : octets.length ≤ 2048 := by
  have hsize : 8 * pair.size ≤ 8192 := h.size_le
  have hlength := (Rsa.length_of_sign hsign).1
  omega

end Algorithm

/-- For a document whose modulus is the product of two primes, a signature verifies under modulus and
exponent if and only if it is what the document signs. There is one such signature, as long as the
modulus, if the padding fits, and none if it does not; no other member of the document changes it.
That the primes are odd and differ need not be said, as no key is built from others. -/
theorem verify_iff_sign_of_prime {p q : Nat} (hp : p.Prime) (hq : q.Prime) {document : Json}
    {built : Hash} {pair : Rsa.PrivateKey}
    (hkey : (signingKey document (.signing .rsa built)).run.value = .ok (.rsa (.privateKey pair)))
    (hmodulus : pair.modulus = p * q) :
    (verifyingKey document (.signing .rsa built)).run.value =
        .ok (.rsa (.publicKey pair.toPublicKey)) ∧
      ∀ (key : Rsa.Key) (hash : Hash) (input : Octets), key.publicHalf = pair.toPublicKey →
        (∀ octets, ((Algorithm.signing .rsa hash).verify (.rsa key) input octets).value = true ↔
          ∃ signature, signature.octets = octets ∧
            ((Algorithm.signing .rsa hash).sign (.rsa (.privateKey pair)) input).run.value =
              .ok signature) ∧
        (hash.length + 30 ≤ pair.size → ∃ signature : Octets, signature.length = pair.size ∧
          ∀ octets, ((Algorithm.signing .rsa hash).verify (.rsa key) input octets).value = true ↔
            octets = signature) ∧
        (pair.size < hash.length + 30 → ∀ octets,
          ((Algorithm.signing .rsa hash).verify (.rsa key) input octets).value = false) ∧
        ∀ (other : Json) (otherBuilt : Hash) (otherPair : Rsa.PrivateKey),
          (signingKey other (.signing .rsa otherBuilt)).run.value =
            .ok (.rsa (.privateKey otherPair)) → otherPair.toPublicKey = pair.toPublicKey →
          (Algorithm.signing .rsa hash).sign (.rsa (.privateKey otherPair)) input =
            (Algorithm.signing .rsa hash).sign (.rsa (.privateKey pair)) input := by
  have hinverts := inverts_of_signingKey hkey
  obtain ⟨hpFactor, hqFactor⟩ := hinverts.prime_factors hp hq hmodulus
  refine ⟨?_, ?_⟩
  · obtain ⟨jwk, family, hdocument, hfamily, hkeyType, hmembers⟩ :=
      (signingKey_eq_ok_iff _ _ _).mp hkey
    cases hfamily
    obtain ⟨found, hfound, _, hpublic⟩ := Jwk.rsaPublicKey_of_rsaPrivateKey hmembers
    cases hfound
    exact (verifyingKey_eq_ok_iff _ _ _).mpr ⟨jwk, .rsa, hdocument, rfl, hkeyType, hpublic⟩
  · intro key hash input hpublic
    have hverify : ∀ octets,
        ((Algorithm.signing .rsa hash).verify (.rsa key) input octets).value = true ↔
          pair.sign hash input = .ok octets := by
      intro octets
      rw [Algorithm.verify_rsa_iff, hpublic]
      exact hinverts.verifies_iff_sign hpFactor hqFactor hash input octets
    refine ⟨fun octets => ?_, fun hfits => ?_, fun hshort octets => ?_, ?_⟩
    · rw [hverify]
      constructor
      · intro hsign
        exact ⟨⟨octets, Algorithm.length_le_of_sign hinverts.sound hsign⟩, rfl,
          (Algorithm.sign_rsa_iff _).mpr hsign⟩
      · rintro ⟨signature, rfl, hsign⟩
        exact (Algorithm.sign_rsa_iff _).mp hsign
    · have hblock := (Rsa.encodeDigest_eq_some_iff hash (hash.digest input) pair.size _).mpr
        ⟨by rwa [Hash.length_digest], rfl⟩
      have hsign := hinverts.sign_of_encodeDigest hpFactor hqFactor hblock
      refine ⟨_, (Rsa.length_of_sign hsign).1, fun octets => ?_⟩
      rw [hverify, hsign, Except.ok.injEq]
      exact eq_comm
    · rw [Bool.eq_false_iff]
      intro hvalid
      obtain ⟨block, hblock, _⟩ := (pair.sign_eq_ok_iff _ _ _).mp ((hverify octets).mp hvalid)
      have hsize := ((Rsa.encodeDigest_eq_some_iff _ _ _ _).mp hblock).1
      rw [Hash.length_digest] at hsize
      omega
    · intro other otherBuilt otherPair hother hsame
      refine Algorithm.sign_rsa_congr (fun hash => ?_) (.signing .rsa hash)
      exact hinverts.sign_eq hpFactor hqFactor (inverts_of_signingKey hother) hsame hash input

/-- A document that leaves out the factors, which are two Mersenne primes. -/
def mersenneDocument : Json := .object
  [("kty", .string "RSA"),
   ("n", .string ("_____________________f____________________________________________" ++
     "____________________-AAAAAAAAAAAAAAAAAAAAB")),
   ("e", .string "AQAB"),
   ("d", .string ("Kn_VgCp_1YAqf9WAKn_Vf4CAf3-AgH9_gIB_f4CAf3-AgH9_gIB_f4CAf3-AgH9_gIB_f4" ++
     "CAf3-AgH9_gIB_f4BV_6oAVf-qAFX_qgBV_6oB"))]

theorem exists_pair_of_kind {key : Key} (h : key.kind = "RSA private") :
    ∃ pair, key = .rsa (.privateKey pair) := by
  cases key with
  | symmetric secret => simp [Key.kind] at h
  | rsa key =>
      cases key with
      | publicKey key => simp [Key.kind] at h
      | privateKey pair => exact ⟨pair, rfl⟩
  | ecdsa key => cases key <;> simp [Key.kind] at h

/-- Of an empty message one signature verifies. -/
theorem verify_iff_sign_of_mersenne : ∃ (pair : Rsa.PrivateKey) (signature : Octets),
    (mersenne 127).Prime ∧ (mersenne 521).Prime ∧
      (signingKey mersenneDocument (.signing .rsa .sha256)).run.value =
        .ok (.rsa (.privateKey pair)) ∧
      pair.modulus = mersenne 127 * mersenne 521 ∧ signature.length = 81 ∧
      ∀ octets, ((Algorithm.signing .rsa .sha256).verify (.rsa (.publicKey pair.toPublicKey)) []
        octets).value = true ↔ octets = signature := by
  have hp : (mersenne 127).Prime := lucas_lehmer_sufficiency _ (by simp) (by norm_num)
  have hq : (mersenne 521).Prime := lucas_lehmer_sufficiency _ (by simp) (by norm_num)
  have hkind : (signingKey mersenneDocument (.signing .rsa .sha256)).run.value.toOption.map
      Key.kind = some "RSA private" := by decide +kernel
  have hpublic : ((signingKey mersenneDocument (.signing .rsa .sha256)).run.value.toOption.bind
      fun key => key.asRsa.toOption).map (fun key => (key.publicHalf.modulus, key.publicHalf.size)) =
        some (mersenne 127 * mersenne 521, 81) := by decide +kernel
  cases hkey : (signingKey mersenneDocument (.signing .rsa .sha256)).run.value with
  | error failure =>
      rw [hkey] at hkind
      cases hkind
  | ok key =>
      rw [hkey] at hkind hpublic
      obtain ⟨pair, rfl⟩ := exists_pair_of_kind (Option.some.inj hkind)
      obtain ⟨hmodulus, hsize⟩ := Prod.mk.inj (Option.some.inj hpublic)
      obtain ⟨_, hall⟩ := verify_iff_sign_of_prime hp hq hkey hmodulus
      obtain ⟨_, hone, _⟩ := hall (.publicKey pair.toPublicKey) .sha256 [] rfl
      have hsize : pair.size = 81 := hsize
      obtain ⟨signature, hlength, hverify⟩ := hone (by rw [hsize]; decide)
      exact ⟨pair, signature, hp, hq, rfl, hmodulus, hlength.trans hsize, hverify⟩

end WebToken
