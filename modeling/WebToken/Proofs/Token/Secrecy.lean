import WebToken.Proofs.Jwk.Secret
import WebToken.Proofs.Token.Reports

/-! What the log tells about secrets. Documents that differ in the text of a secret, at equal lengths,
leave the same log if they end in the same way; except that a text which is no base-64 is reported with
its first fault, and a fault may name an octet of the text. -/

namespace WebToken

namespace Jwk

variable {member leftText rightText : String}

/-- What the log of a run tells of a secret: nothing, or the faults of two texts that write none. -/
inductive SameButFault (member leftText rightText : String) (rejected : Error → Event) :
    List Event → List Event → Prop
  | same (events : List Event) : SameButFault member leftText rightText rejected events events
  | faults (events : List Event) {left right : Base64Url.Fault} :
      Base64Url.decode leftText valueLimit = .error left →
      Base64Url.decode rightText valueLimit = .error right → left ≠ right →
      SameButFault member leftText rightText rejected
        (events ++ [rejected (.memberInvalid member (.undecodable left))])
        (events ++ [rejected (.memberInvalid member (.undecodable right))])

/-- Faults of both texts may be the same. -/
theorem SameButFault.of_faults (rejected : Error → Event) (events : List Event)
    {left right : Base64Url.Fault} (hleft : Base64Url.decode leftText valueLimit = .error left)
    (hright : Base64Url.decode rightText valueLimit = .error right) :
    SameButFault member leftText rightText rejected
      (events ++ [rejected (.memberInvalid member (.undecodable left))])
      (events ++ [rejected (.memberInvalid member (.undecodable right))]) := by
  by_cases hfault : left = right
  · rw [hfault]
    exact .same _
  · exact .faults events hleft hright hfault

/-- If one of the texts writes octets, the log tells nothing. -/
theorem SameButFault.eq_of_decode {rejected : Error → Event} {leftEvents rightEvents : List Event}
    (h : SameButFault member leftText rightText rejected leftEvents rightEvents) {octets : Octets}
    (hread : Base64Url.decode leftText valueLimit = .ok octets) : leftEvents = rightEvents := by
  cases h with
  | same events => rfl
  | faults events hleft => cases hread.symm.trans hleft

end Jwk

/-! ### Signatures -/

theorem BoundedOctets.map_length_ofOctets {capacity : Nat} {left right : Octets}
    (h : left.length = right.length) :
    length <$> (ofOctets left : Except Error (BoundedOctets capacity)) =
      length <$> (ofOctets right : Except Error (BoundedOctets capacity)) := by
  rw [ofOctets, ofOctets]
  by_cases hbounded : left.length ≤ capacity
  · rw [dif_pos hbounded, dif_pos (h ▸ hbounded)]
    exact congrArg Except.ok h
  · rw [dif_neg hbounded, dif_neg (h ▸ hbounded), h]

/-- A signature on a curve fits the capacity of signatures. -/
theorem Ecdsa.ofOctets_of_sign {key : SigningKey} {digest octets : Octets}
    (h : key.sign digest = some octets) :
    ∃ signature : Signature, BoundedOctets.ofOctets octets = .ok signature := by
  have hfits : octets.length ≤ 2048 := by
    rw [length_of_sign h]
    cases key.curve <;> decide
  exact ⟨⟨octets, hfits⟩, dif_pos hfits⟩

/-- A function on the result makes no refusal, and takes none away. -/
theorem isOk_map {ε α β : Type} (next : α → β) (result : Except ε α) :
    (next <$> result).isOk = result.isOk := by
  cases result <;> rfl

namespace Scheme

variable {scheme : Scheme} {left right : Key}

/-- What a scalar signs has the length of two field elements. -/
theorem map_length_sign_scalar (algorithm : Algorithm) (hash : Hash) (expected curve : Curve)
    (scalar : Nat) (input : Octets) :
    BoundedOctets.length <$>
        (ecdsa algorithm hash expected).sign (.ecdsa (.signing ⟨curve, scalar⟩)) input = (do
      checkCurve algorithm expected curve
      if ((Ecdsa.SigningKey.mk curve scalar).sign (hash.digest input)).isSome then
        pure (2 * curve.fieldSize)
      else
        .error (.signingFailed .ecdsa)) := by
  rw [sign_scalar, map_bind]
  cases checkCurve algorithm expected curve with
  | error cause => rfl
  | ok done =>
      cases hsign : (Ecdsa.SigningKey.mk curve scalar).sign (hash.digest input) with
      | none => rfl
      | some octets =>
          obtain ⟨signature, hfits⟩ := Ecdsa.ofOctets_of_sign hsign
          have hlength : signature.length = 2 * curve.fieldSize := by
            rw [BoundedOctets.length, ← (BoundedOctets.ofOctets_eq_ok_iff _ _).mp hfits,
              Ecdsa.length_of_sign hsign]
          change BoundedOctets.length <$> (BoundedOctets.ofOctets octets : Except Error Signature) = _
          rw [hfits]
          exact congrArg Except.ok hlength

/-- Peers sign at one length, or are refused for one cause, or only one of them signs. -/
theorem sign_of_peers (h : left.Peers right) {input : Octets}
    (hsame : (scheme.sign left input).isOk = (scheme.sign right input).isOk) :
    BoundedOctets.length <$> scheme.sign left input =
      BoundedOctets.length <$> scheme.sign right input := by
  cases h with
  | secrets leftSecret rightSecret =>
      cases scheme with
      | hmac algorithm hash =>
          refine BoundedOctets.map_length_ofOctets ?_
          rw [Hash.length_hmac, Hash.length_hmac]
      | rsa algorithm hash => rfl
      | ecdsa algorithm hash curve => rfl
  | scalars curve leftScalar rightScalar =>
      cases scheme with
      | hmac algorithm hash => rfl
      | rsa algorithm hash => rfl
      | ecdsa algorithm hash expected =>
          rw [← isOk_map BoundedOctets.length, ← isOk_map BoundedOctets.length] at hsame
          rw [map_length_sign_scalar, map_length_sign_scalar] at hsame ⊢
          cases hcurve : checkCurve algorithm expected curve with
          | error cause => rfl
          | ok done =>
              rw [hcurve] at hsame
              revert hsame
              cases ((Ecdsa.SigningKey.mk curve leftScalar).sign (hash.digest input)).isSome <;>
                cases ((Ecdsa.SigningKey.mk curve rightScalar).sign (hash.digest input)).isSome <;>
                first | exact fun _ => rfl | rintro ⟨⟩

theorem accept_eq_of_isOk {left right : Bool} (h : (accept left).isOk = (accept right).isOk) :
    accept left = accept right := by
  cases left <;> cases right <;> first | rfl | cases h

/-- Peers verify alike, or only one of them does. -/
theorem verify_of_peers (h : left.Peers right) {input signature : Octets}
    (hsame : (scheme.verify left input signature).isOk =
      (scheme.verify right input signature).isOk) :
    scheme.verify left input signature = scheme.verify right input signature := by
  cases h with
  | secrets leftSecret rightSecret =>
      cases scheme with
      | hmac algorithm hash => exact accept_eq_of_isOk hsame
      | rsa algorithm hash => rfl
      | ecdsa algorithm hash curve => rfl
  | scalars curve leftScalar rightScalar =>
      cases scheme with
      | hmac algorithm hash => rfl
      | rsa algorithm hash => rfl
      | ecdsa algorithm hash expected =>
          simp only [verify_ecdsa, Ecdsa.Key.curve] at hsame ⊢
          cases hcurve : checkCurve algorithm expected curve with
          | error cause => rfl
          | ok done =>
              rw [hcurve] at hsame
              exact accept_eq_of_isOk hsame

end Scheme

namespace Algorithm

variable {algorithm : Algorithm} {left right : Key}

/-- Peers that sign alike leave the same log. -/
theorem events_sign_of_peers (h : left.Peers right) {input : Octets}
    (hsame : (algorithm.sign left input).run.value.isOk =
      (algorithm.sign right input).run.value.isOk) :
    (algorithm.sign left input).run.events = (algorithm.sign right input).run.events := by
  have hkind : left.kind = right.kind := by cases h <;> rfl
  cases hscheme : Scheme.ofAlgorithm algorithm with
  | error cause =>
      rw [sign, sign, hscheme]
      rfl
  | ok scheme =>
      rw [run_sign hscheme, run_sign hscheme] at hsame ⊢
      rw [hkind, Scheme.sign_of_peers h hsame]

/-- Peers that verify alike leave the same log. -/
theorem events_verify_of_peers (h : left.Peers right) {input signature : Octets}
    (hsame : (algorithm.verify left input signature).value =
      (algorithm.verify right input signature).value) :
    (algorithm.verify left input signature).events =
      (algorithm.verify right input signature).events := by
  have hcheck : algorithm.check left input signature = algorithm.check right input signature := by
    rw [check, check]
    cases hscheme : Scheme.ofAlgorithm algorithm with
    | error cause => rfl
    | ok scheme =>
        rw [value_verify, value_verify, check, check, hscheme] at hsame
        exact Scheme.verify_of_peers h hsame
  rw [verify, verify, hcheck]

end Algorithm

/-! ### Tokens -/

namespace Token

variable {algorithm : Algorithm} {member leftText rightText : String} {left right : Members}
  {events : List Event}

theorem sign_congr (token : Token)
    (h : (signingKey (.object left) algorithm).run = (signingKey (.object right) algorithm).run) :
    token.sign algorithm (.object left) = token.sign algorithm (.object right) := by
  simp only [sign, computeSignature, h]
  rfl

/-- The logs of signing differ at most in the faults of the texts. -/
theorem sign_sameButFault (token : Token)
    (h : Jwk.DifferInSecret member leftText rightText left right)
    (hkind : Outcome.SameKind (signingKey (.object left) algorithm).run.value
      (signingKey (.object right) algorithm).run.value)
    (hsame : (token.sign algorithm (.object left)).value.2.isOk =
      (token.sign algorithm (.object right)).value.2.isOk) :
    Jwk.SameButFault member leftText rightText (.signingKeyRejected algorithm)
      (token.sign algorithm (.object left)).events
      (token.sign algorithm (.object right)).events := by
  cases hsigning : algorithm.isSigning with
  | false =>
      rw [sign, sign, hsigning]
      exact .same []
  | true =>
      obtain hequal | ⟨events, leftKey, rightKey, hleft, hright, hbuilt⟩ :=
        signingKey_of_differ h hkind
      · rw [sign_congr token hequal]
        exact .same _
      rw [(sign_object token hsigning).1, (sign_object token hsigning).1,
        run_computeSignature _ hleft, run_computeSignature _ hright]
      rw [(sign_object token hsigning).2, (sign_object token hsigning).2, isOk_map, isOk_map,
        run_computeSignature _ hleft, run_computeSignature _ hright] at hsame
      cases hbuilt with
      | refused cause => exact .same _
      | @built leftKey rightKey hpeers =>
          have hmade := (isOk_ofExcept _).symm.trans (hsame.trans (isOk_ofExcept _))
          have hlast : keyEvents (token.prepared algorithm).settled.signingInput algorithm (.ok leftKey) =
              keyEvents (token.prepared algorithm).settled.signingInput algorithm (.ok rightKey) :=
            Algorithm.events_sign_of_peers hpeers hmade
          rw [Outcome.ofExcept, Outcome.ofExcept, hlast]
          exact .same _
      | undecodable hleftText hrightText => exact .of_faults _ events hleftText hrightText

/-- The logs of checking a signature differ at most in the faults of the texts. -/
theorem hasValidSignature_sameButFault (token : Token)
    (h : Jwk.DifferInSecret member leftText rightText left right)
    (hkind : Outcome.SameKind
      (Outcome.ofExcept (verifyingKey (.object left) token.algorithm).run.value)
      (Outcome.ofExcept (verifyingKey (.object right) token.algorithm).run.value))
    (hsame : (token.hasValidSignature (.object left)).value.2 =
      (token.hasValidSignature (.object right)).value.2) :
    Jwk.SameButFault member leftText rightText (.verifyingKeyRejected token.algorithm)
      (token.hasValidSignature (.object left)).events
      (token.hasValidSignature (.object right)).events := by
  rw [hasValidSignature, hasValidSignature] at *
  split
  · exact .same _
  rename_i hsigned
  rw [if_neg hsigned, if_neg hsigned] at hsame
  obtain hequal | ⟨events, leftKey, rightKey, hleft, hright, hbuilt⟩ :=
    verifyingKey_of_differ h hkind
  · rw [hequal]
    exact .same _
  rw [hleft, hright] at hsame ⊢
  cases hbuilt with
  | refused cause => exact .same _
  | built hpeers =>
      have hlast := Algorithm.events_verify_of_peers hpeers hsame
      simp only [Logged.events_bind, hlast]
      exact .same _
  | undecodable hleftText hrightText => exact .of_faults _ events hleftText hrightText

end Token

/-- Two documents that differ only in the text of a secret, at equal lengths, both with a key or both
refused by the same kind of error: if a token is signed with both or with neither, the logs are the same
up to the faults of texts that write no octets; and so they are if its signature is valid for both or
for neither. -/
theorem sameButFault_of_differInSecret {member leftText rightText : String} {left right : Members}
    (h : Jwk.DifferInSecret member leftText rightText left right) (token : Token)
    (algorithm : Algorithm) :
    (Outcome.SameKind (signingKey (.object left) algorithm).run.value
        (signingKey (.object right) algorithm).run.value →
      (token.sign algorithm (.object left)).value.2.isOk =
        (token.sign algorithm (.object right)).value.2.isOk →
      Jwk.SameButFault member leftText rightText (.signingKeyRejected algorithm)
        (token.sign algorithm (.object left)).events
        (token.sign algorithm (.object right)).events) ∧
    (Outcome.SameKind
        (Outcome.ofExcept (verifyingKey (.object left) token.algorithm).run.value)
        (Outcome.ofExcept (verifyingKey (.object right) token.algorithm).run.value) →
      (token.hasValidSignature (.object left)).value.2 =
        (token.hasValidSignature (.object right)).value.2 →
      Jwk.SameButFault member leftText rightText (.verifyingKeyRejected token.algorithm)
        (token.hasValidSignature (.object left)).events
        (token.hasValidSignature (.object right)).events) :=
  ⟨token.sign_sameButFault h, token.hasValidSignature_sameButFault h⟩

/-- A document of a secret, with nothing else. -/
def secretDocument (text : String) : Members :=
  [("kty", .string "oct"), ("k", .string text)]

theorem differInSecret_secretDocument {leftText rightText : String}
    (hsize : leftText.utf8ByteSize = rightText.utf8ByteSize) :
    Jwk.DifferInSecret "k" leftText rightText (secretDocument leftText)
      (secretDocument rightText) where
  secret := ⟨.symmetric, rfl, rfl⟩
  leftMember := rfl
  rightMember := rfl
  others name hname := by
    rw [secretDocument, secretDocument, Members.find?_cons, Members.find?_cons, Members.find?_cons,
      Members.find?_cons, if_neg hname, if_neg hname]
  size := hsize

/-- Two secrets of one letter sign an empty token, and leave the same log. -/
theorem sameButFault_of_letter_secrets :
    Jwk.DifferInSecret "k" "YQ" "Yg" (secretDocument "YQ") (secretDocument "Yg") ∧
      (signingKey (.object (secretDocument "YQ")) (.signing .symmetric .sha256)).run.value =
        .ok (.symmetric [97]) ∧
      (signingKey (.object (secretDocument "Yg")) (.signing .symmetric .sha256)).run.value =
        .ok (.symmetric [98]) ∧
      ((Token.new none).sign (.signing .symmetric .sha256)
        (.object (secretDocument "YQ"))).value.2 = .ok () ∧
      ((Token.new none).sign (.signing .symmetric .sha256)
        (.object (secretDocument "Yg"))).value.2 = .ok () ∧
      ((Token.new none).sign (.signing .symmetric .sha256)
          (.object (secretDocument "YQ"))).events =
        ((Token.new none).sign (.signing .symmetric .sha256)
          (.object (secretDocument "Yg"))).events := by
  have hdiffer : Jwk.DifferInSecret "k" "YQ" "Yg" (secretDocument "YQ") (secretDocument "Yg") :=
    differInSecret_secretDocument rfl
  have hleftKey : (signingKey (.object (secretDocument "YQ"))
      (.signing .symmetric .sha256)).run.value = .ok (.symmetric [97]) := rfl
  have hrightKey : (signingKey (.object (secretDocument "Yg"))
      (.signing .symmetric .sha256)).run.value = .ok (.symmetric [98]) := rfl
  have hleft : ((Token.new none).sign (.signing .symmetric .sha256)
      (.object (secretDocument "YQ"))).value.2 = .ok () := by decide +kernel
  have hright : ((Token.new none).sign (.signing .symmetric .sha256)
      (.object (secretDocument "Yg"))).value.2 = .ok () := by decide +kernel
  have hread : Base64Url.decode "YQ" Jwk.valueLimit = .ok [97] := rfl
  have hlogs := (sameButFault_of_differInSecret hdiffer (Token.new none)
    (.signing .symmetric .sha256)).1 (by rw [hleftKey, hrightKey]; trivial) (by rw [hleft, hright])
  exact ⟨hdiffer, hleftKey, hrightKey, hleft, hright, hlogs.eq_of_decode hread⟩

/-- The texts of two secrets, both refused for the bits that their last letters leave over: the log
names the letters. -/
theorem fields_of_spoilt_secrets :
    Jwk.DifferInSecret "k" "AAB" "AAC" (secretDocument "AAB") (secretDocument "AAC") ∧
      Outcome.SameKind
        (signingKey (.object (secretDocument "AAB")) (.signing .symmetric .sha256)).run.value
        (signingKey (.object (secretDocument "AAC")) (.signing .symmetric .sha256)).run.value ∧
      ((Token.new none).sign (.signing .symmetric .sha256)
        (.object (secretDocument "AAB"))).value.2.isOk = false ∧
      ((Token.new none).sign (.signing .symmetric .sha256)
        (.object (secretDocument "AAC"))).value.2.isOk = false ∧
      ((Token.new none).sign (.signing .symmetric .sha256)
          (.object (secretDocument "AAB"))).events.map Event.fields ≠
        ((Token.new none).sign (.signing .symmetric .sha256)
          (.object (secretDocument "AAC"))).events.map Event.fields :=
  ⟨differInSecret_secretDocument rfl, rfl, rfl, rfl, by decide +kernel⟩

end WebToken
