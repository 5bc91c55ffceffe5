import WebToken.Proofs.Token.Verification
import WebToken.Proofs.Verification

/-! Which keys an algorithm works with. Each family has its own kind of key, and each elliptic-curve
algorithm its own curve; with any other key nothing is signed and nothing verifies. Key documents are
held to the same, whatever algorithm they name themselves. -/

namespace WebToken

theorem Curve.eq_name_of_ofName {name : String} {curve : Curve} (h : ofName name = .ok curve) :
    name = curve.name := by
  rw [ofName] at h
  split at h
  · rename_i found hfound
    cases h
    have hname : (curve.name == name) = true :=
      List.find?_some (p := fun candidate : Curve => candidate.name == name) hfound
    exact (beq_iff_eq.mp hname).symm
  · cases h

namespace Algorithm

/-- The keys that sign: of the algorithm's family, with their private half, on its curve. -/
def SignsWith : Algorithm → Key → Prop
  | signing .symmetric _, .symmetric _ => True
  | signing .rsa _, .rsa (.privateKey _) => True
  | signing .ecdsa hash, .ecdsa (.signing pair) => pair.curve = curveFor hash
  | _, _ => False

/-- The keys that verify: of the algorithm's family, with or without a private half, on its curve. -/
def VerifiesWith : Algorithm → Key → Prop
  | signing .symmetric _, .symmetric _ => True
  | signing .rsa _, .rsa _ => True
  | signing .ecdsa hash, .ecdsa key => key.curve = curveFor hash
  | _, _ => False

/-- The documents that can describe a key of the algorithm: objects with the key type of its family,
and with the name of its curve if it has one. -/
def DescribedBy : Algorithm → Json → Prop
  | signing family hash, .object members =>
      Members.find? members "kty" = some (.string family.keyType) ∧
        (family = .ecdsa → Members.find? members "crv" = some (.string (curveFor hash).name))
  | _, _ => False

variable {algorithm : Algorithm} {hash : Hash} {key : Key} {input : Octets}

/-! ### Keys -/

theorem eq_of_asSymmetric {secret : Octets} (h : key.asSymmetric = .ok secret) :
    key = .symmetric secret := by
  cases key with
  | symmetric found =>
      cases h
      rfl
  | rsa found => cases h
  | ecdsa found => cases h

theorem eq_of_asRsa {found : Rsa.Key} (h : key.asRsa = .ok found) : key = .rsa found := by
  cases key with
  | symmetric secret => cases h
  | rsa other =>
      cases h
      rfl
  | ecdsa other => cases h

theorem eq_of_asEcdsa {found : Ecdsa.Key} (h : key.asEcdsa = .ok found) : key = .ecdsa found := by
  cases key with
  | symmetric secret => cases h
  | rsa other => cases h
  | ecdsa other =>
      cases h
      rfl

theorem curve_of_checkCurve {expected found : Curve} {done : Unit}
    (h : Scheme.checkCurve algorithm expected found = .ok done) : found = expected := by
  rw [Scheme.checkCurve] at h
  split at h
  · assumption
  · cases h

theorem signsWith_of_scheme {scheme : Scheme} (hscheme : Scheme.ofAlgorithm algorithm = .ok scheme)
    {signature : Signature} (h : scheme.sign key input = .ok signature) :
    algorithm.SignsWith key := by
  cases algorithm with
  | none => cases hscheme
  | signing family hash =>
      cases family with
      | symmetric =>
          cases hscheme
          obtain ⟨secret, hsecret, _⟩ := bind_eq_ok_iff.mp h
          rw [eq_of_asSymmetric hsecret]
          trivial
      | rsa =>
          cases hscheme
          obtain ⟨found, hfound, h⟩ := bind_eq_ok_iff.mp h
          rw [eq_of_asRsa hfound]
          cases found with
          | publicKey half => cases h
          | privateKey pair => trivial
      | ecdsa =>
          cases hscheme
          obtain ⟨found, hfound, h⟩ := bind_eq_ok_iff.mp h
          obtain ⟨_, hcurve, h⟩ := bind_eq_ok_iff.mp h
          rw [eq_of_asEcdsa hfound]
          cases found with
          | verifying point => cases h
          | signing pair => exact curve_of_checkCurve hcurve

/-- An algorithm signs only with its own keys. -/
theorem signsWith_of_sign {signature : Signature}
    (h : (algorithm.sign key input).run.value = .ok signature) : algorithm.SignsWith key := by
  cases algorithm with
  | none => cases h
  | signing family hash =>
      obtain ⟨scheme, hscheme, hsign⟩ := (sign_eq_ok_iff _ _).mp h
      exact signsWith_of_scheme hscheme hsign

/-- Under an algorithm only its own keys verify anything. -/
theorem verifiesWith_of_verify {signature : Octets}
    (h : (algorithm.verify key input signature).value = true) : algorithm.VerifiesWith key := by
  obtain ⟨scheme, hscheme, h⟩ := bind_eq_ok_iff.mp ((verify_eq_true_iff _ _ _ _).mp h)
  cases algorithm with
  | none => cases hscheme
  | signing family hash =>
      cases family with
      | symmetric =>
          cases hscheme
          obtain ⟨secret, hsecret, _⟩ := bind_eq_ok_iff.mp h
          rw [eq_of_asSymmetric hsecret]
          trivial
      | rsa =>
          cases hscheme
          obtain ⟨found, hfound, _⟩ := bind_eq_ok_iff.mp h
          rw [eq_of_asRsa hfound]
          trivial
      | ecdsa =>
          cases hscheme
          obtain ⟨found, hfound, h⟩ := bind_eq_ok_iff.mp h
          obtain ⟨_, hcurve, _⟩ := bind_eq_ok_iff.mp h
          rw [eq_of_asEcdsa hfound]
          exact curve_of_checkCurve hcurve

/-! ### Documents -/

theorem crv_of_curve {jwk : Jwk} {curve : Curve}
    (h : jwk.curve (.signing .ecdsa hash) = .ok curve) :
    jwk.members.find? "crv" = some (.string (curveFor hash).name) := by
  obtain ⟨name, hname, hfound, rfl⟩ := (Jwk.curve_eq_ok_iff _ _ _).mp h
  rw [hname, Curve.eq_name_of_ofName hfound]

theorem describedBy_of_signingKey {document : Json}
    (h : (signingKey document algorithm).run.value = .ok key) : algorithm.DescribedBy document := by
  obtain ⟨jwk, family, rfl, hfamily, hkeyType, hmembers⟩ := (signingKey_eq_ok_iff _ _ _).mp h
  obtain ⟨hash, rfl⟩ := exists_hash_of_family? hfamily
  refine ⟨hkeyType, ?_⟩
  rintro rfl
  obtain ⟨curve, hcurve, _⟩ := bind_eq_ok_iff.mp ((ofExcept_eq_ok_iff _ _).mp hmembers)
  exact crv_of_curve hcurve

theorem describedBy_of_verifyingKey {document : Json}
    (h : (verifyingKey document algorithm).run.value = .ok key) :
    algorithm.DescribedBy document := by
  obtain ⟨jwk, family, rfl, hfamily, hkeyType, hmembers⟩ := (verifyingKey_eq_ok_iff _ _ _).mp h
  obtain ⟨hash, rfl⟩ := exists_hash_of_family? hfamily
  refine ⟨hkeyType, ?_⟩
  rintro rfl
  obtain ⟨curve, hcurve, _⟩ := bind_eq_ok_iff.mp hmembers
  exact crv_of_curve hcurve

end Algorithm

namespace Token

variable {token : Token} {algorithm : Algorithm} {document : Json}

theorem describedBy_of_sign (h : (token.sign algorithm document).value.2 = .ok ()) :
    algorithm.DescribedBy document := by
  obtain ⟨_, cause, hvalue⟩ | ⟨_, _, ⟨failure, _, hvalue⟩ | ⟨signature, hsigned, _⟩⟩ :=
    token.sign_cases algorithm document
  · cases h.symm.trans (congrArg Prod.snd hvalue)
  · cases h.symm.trans (congrArg Prod.snd hvalue)
  · obtain ⟨key, hkey, _⟩ := (computeSignature_eq_ok_iff _ _ _ _).mp hsigned
    exact Algorithm.describedBy_of_signingKey hkey

theorem describedBy_of_hasValidSignature
    (h : (token.hasValidSignature document).value.2 = true) :
    token.algorithm.DescribedBy document := by
  obtain ⟨_, _, key, hkey, _⟩ := (hasValidSignature_iff _ _).mp h
  exact Algorithm.describedBy_of_verifyingKey hkey

end Token

/-- No algorithm signs or verifies with a key of another, whatever the key was built from; and no token
is signed, and no signature of it valid, by a document of another key type or curve. In particular
nothing is signed and nothing verifies without an algorithm. -/
theorem keys_fit_algorithm (algorithm : Algorithm) :
    (∀ (key : Key) (input : Octets) (signature : Signature),
      (algorithm.sign key input).run.value = .ok signature → algorithm.SignsWith key) ∧
    (∀ (key : Key) (input signature : Octets),
      (algorithm.verify key input signature).value = true → algorithm.VerifiesWith key) ∧
    (∀ (token : Token) (document : Json),
      (token.sign algorithm document).value.2 = .ok () → algorithm.DescribedBy document) ∧
    (∀ (token : Token) (document : Json), token.algorithm = algorithm →
      (token.hasValidSignature document).value.2 = true → algorithm.DescribedBy document) := by
  refine ⟨fun _ _ _ hsign => Algorithm.signsWith_of_sign hsign,
    fun _ _ _ hverify => Algorithm.verifiesWith_of_verify hverify,
    fun _ _ hsign => Token.describedBy_of_sign hsign, ?_⟩
  rintro token document rfl hvalid
  exact Token.describedBy_of_hasValidSignature hvalid

/-- A document of the secret `a` signs a token and finds it valid, and the secret does the same for an
empty message. -/
theorem keys_fit_of_letter_secret : ∃ (document : Json) (token : Token) (signature : Signature),
    document = .object [("alg", .string "RS256"), ("kty", .string "oct"), ("k", .string "YQ")] ∧
      ((Token.new none).sign (.signing .symmetric .sha256) document).value = (token, .ok ()) ∧
      (token.hasValidSignature document).value.2 = true ∧
      ((Algorithm.signing .symmetric .sha256).sign (.symmetric [97]) []).run.value =
        .ok signature ∧
      ((Algorithm.signing .symmetric .sha256).verify (.symmetric [97]) []
        signature.octets).value = true ∧
      (Algorithm.signing .symmetric .sha256).SignsWith (.symmetric [97]) ∧
      (Algorithm.signing .symmetric .sha256).VerifiesWith (.symmetric [97]) ∧
      (Algorithm.signing .symmetric .sha256).DescribedBy document := by
  let document : Json :=
    .object [("alg", .string "RS256"), ("kty", .string "oct"), ("k", .string "YQ")]
  let mac : Signature := ⟨Hash.sha256.hmac [97] [], by rw [Hash.length_hmac]; decide⟩
  have hsign : ((Algorithm.signing .symmetric .sha256).sign (.symmetric [97]) []).run.value =
      .ok mac :=
    (Algorithm.sign_eq_ok_iff _ _).mpr ⟨_, rfl, (BoundedOctets.ofOctets_eq_ok_iff mac.octets mac).mpr rfl⟩
  have hverify : ((Algorithm.signing .symmetric .sha256).verify (.symmetric [97]) []
      mac.octets).value = true :=
    (Algorithm.verify_symmetric_iff _ _ _ _).mpr rfl
  have hsigned : ((Token.new none).sign (.signing .symmetric .sha256) document).value.2 =
      .ok () := by decide +kernel
  have hvalid : (((Token.new none).sign (.signing .symmetric .sha256)
      document).value.1.hasValidSignature document).value.2 = true := by decide +kernel
  obtain ⟨hsigns, hverifies, hdescribes, _⟩ := keys_fit_algorithm (.signing .symmetric .sha256)
  exact ⟨document, _, mac, rfl, Prod.ext rfl hsigned, hvalid, hsign, hverify,
    hsigns _ _ _ hsign, hverifies _ _ _ hverify, hdescribes _ _ hsigned⟩

end WebToken
