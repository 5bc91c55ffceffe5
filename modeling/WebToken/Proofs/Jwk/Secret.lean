import WebToken.Proofs.Jwk.Consumed
import WebToken.Proofs.Verification

/-! What a document makes of the text of a secret. Two texts of one length are refused for one cause, or
make keys that differ only in the secret, or either has a fault of its own. -/

namespace WebToken

/-- Both with a value, or both refused by the same kind of error. -/
def Outcome.SameKind {α : Type} : Outcome α → Outcome α → Prop
  | .ok _, .ok _ => True
  | .error (.error left), .error (.error right) => left.ctorIdx = right.ctorIdx
  | .error .crash, .error .crash => True
  | _, _ => False

/-! ### Secrets -/

namespace Jwk

/-- The member with the secret of a key of the family, where a single one is secret. -/
def secretMember : Family → Option String
  | .symmetric => some "k"
  | .rsa => none
  | .ecdsa => some "d"

/-- Two documents of one key type that differ only in the text of its secret, at equal lengths. -/
structure DifferInSecret (member leftText rightText : String) (left right : Members) : Prop where
  secret : ∃ family, secretMember family = some member ∧
    left.find? "kty" = some (.string family.keyType)
  leftMember : left.find? member = some (.string leftText)
  rightMember : right.find? member = some (.string rightText)
  others : ∀ name, name ≠ member → left.find? name = right.find? name
  size : leftText.utf8ByteSize = rightText.utf8ByteSize

/-- What two texts of a member come to: both are refused for the same cause, both are read as equally
many octets, or either has a fault of its own. -/
inductive ReadAlike (member leftText rightText : String) :
    Except Error Octets → Except Error Octets → Prop
  | refused (cause : Error) : ReadAlike member leftText rightText (.error cause) (.error cause)
  | read {left right : Octets} : left.length = right.length →
      ReadAlike member leftText rightText (.ok left) (.ok right)
  | undecodable {left right : Base64Url.Fault} :
      Base64Url.decode leftText valueLimit = .error left →
      Base64Url.decode rightText valueLimit = .error right →
      ReadAlike member leftText rightText (.error (.memberInvalid member (.undecodable left)))
        (.error (.memberInvalid member (.undecodable right)))
  | rightUndecodable (left : Octets) (right : Base64Url.Fault) :
      ReadAlike member leftText rightText (.ok left)
        (.error (.memberInvalid member (.undecodable right)))
  | leftUndecodable (left : Base64Url.Fault) (right : Octets) :
      ReadAlike member leftText rightText (.error (.memberInvalid member (.undecodable left)))
        (.ok right)

theorem octets_of_text {jwk : Jwk} {member text : String}
    (h : jwk.members.find? member = some (.string text)) :
    jwk.octets member =
      if textLimit < text.utf8ByteSize then
        .error (.memberTooLarge member text.utf8ByteSize textLimit)
      else
        match Base64Url.decode text valueLimit with
        | .error fault => .error (.memberInvalid member (.undecodable fault))
        | .ok [] => .error (.memberInvalid member .empty)
        | .ok octets => .ok octets := by
  rw [octets, octets?, h]
  dsimp only
  split
  · rfl
  · cases Base64Url.decode text valueLimit with
    | error fault => rfl
    | ok octets => cases octets <;> rfl

/-- Texts of one length write equally many octets, if they write any. -/
theorem length_eq_of_decode {leftText rightText : String} {left right : Octets}
    (hsize : leftText.utf8ByteSize = rightText.utf8ByteSize)
    (hleft : Base64Url.decode leftText valueLimit = .ok left)
    (hright : Base64Url.decode rightText valueLimit = .ok right) : left.length = right.length := by
  rw [((Base64Url.decode_eq_ok_iff valueLimit _ _).mp hleft).1,
    ((Base64Url.decode_eq_ok_iff valueLimit _ _).mp hright).1, Base64Url.utf8ByteSize_encode,
    Base64Url.utf8ByteSize_encode] at hsize
  omega

/-- A text as long as the empty one is empty, and has no fault. -/
theorem decode_ne_error_of_empty {leftText rightText : String} {fault : Base64Url.Fault}
    (hsize : leftText.utf8ByteSize = rightText.utf8ByteSize)
    (hleft : Base64Url.decode leftText valueLimit = .ok []) :
    Base64Url.decode rightText valueLimit ≠ .error fault := by
  obtain ⟨rfl, _⟩ := (Base64Url.decode_eq_ok_iff valueLimit _ _).mp hleft
  rw [Base64Url.utf8ByteSize_encode] at hsize
  obtain rfl : rightText = "" := String.utf8ByteSize_eq_zero_iff.mp hsize.symm
  rintro ⟨⟩

theorem octets_alike {left right : Jwk} {member leftText rightText : String}
    (hleft : left.members.find? member = some (.string leftText))
    (hright : right.members.find? member = some (.string rightText))
    (hsize : leftText.utf8ByteSize = rightText.utf8ByteSize) :
    ReadAlike member leftText rightText (left.octets member) (right.octets member) := by
  rw [octets_of_text hleft, octets_of_text hright, ← hsize]
  split
  · exact .refused _
  cases hleftRead : Base64Url.decode leftText valueLimit with
  | error leftFault =>
      cases hrightRead : Base64Url.decode rightText valueLimit with
      | error rightFault => exact .undecodable hleftRead hrightRead
      | ok rightOctets =>
          cases rightOctets with
          | nil => exact absurd hleftRead (decode_ne_error_of_empty hsize.symm hrightRead)
          | cons octet rest => exact .leftUndecodable _ _
  | ok leftOctets =>
      cases hrightRead : Base64Url.decode rightText valueLimit with
      | error rightFault =>
          cases leftOctets with
          | nil => exact absurd hrightRead (decode_ne_error_of_empty hsize hleftRead)
          | cons octet rest => exact .rightUndecodable _ _
      | ok rightOctets =>
          have hlength := length_eq_of_decode hsize hleftRead hrightRead
          cases leftOctets with
          | nil =>
              cases rightOctets with
              | nil => exact .refused _
              | cons octet rest => cases hlength
          | cons octet rest =>
              cases rightOctets with
              | nil => cases hlength
              | cons other others => exact .read hlength

end Jwk

/-! ### Keys -/

namespace Key

/-- Keys of one secret each that differ at most in it. -/
inductive Peers : Key → Key → Prop
  | secrets (left right : Octets) : Peers (.symmetric left) (.symmetric right)
  | scalars (curve : Curve) (left right : Nat) :
      Peers (.ecdsa (.signing ⟨curve, left⟩)) (.ecdsa (.signing ⟨curve, right⟩))

/-- A way to make a key of its secret. Secrets of one length make peers, or are refused for one cause,
or only one of them is a secret. -/
structure Uniform (make : Octets → Except Error Key) : Prop where
  peers {left right : Octets} {leftKey rightKey : Key} : left.length = right.length →
    make left = .ok leftKey → make right = .ok rightKey → leftKey.Peers rightKey
  cause {left right : Octets} {leftCause rightCause : Error} : left.length = right.length →
    make left = .error leftCause → make right = .error rightCause → leftCause = rightCause
  keyInvalid {octets : Octets} {cause : Error} : make octets = .error cause →
    ∃ fault, cause = .keyInvalid fault

theorem uniform_symmetric : Uniform fun secret => pure (.symmetric secret) where
  peers _ hleft hright := by
    cases hleft
    cases hright
    exact .secrets _ _
  cause _ hleft := nomatch hleft
  keyInvalid h := nomatch h

theorem uniform_ofEcdsaScalar (curve : Curve) : Uniform (ofEcdsaScalar curve) where
  peers _ hleft hright := by
    obtain ⟨_, _, _, rfl⟩ := eq_of_ofEcdsaScalar hleft
    obtain ⟨_, _, _, rfl⟩ := eq_of_ofEcdsaScalar hright
    exact .scalars curve _ _
  cause hlength hleft hright := by
    simp only [ofEcdsaScalar_eq, hlength] at hleft hright
    split at hleft
    · rename_i hlong
      cases hleft
      rw [if_pos hlong] at hright
      exact Except.error.inj hright
    · rename_i hshort
      rw [if_neg hshort] at hright
      split at hleft <;> cases hleft
      split at hright <;> cases hright
      rfl
  keyInvalid h := by
    rw [ofEcdsaScalar_eq] at h
    split at h
    · cases h
      exact ⟨_, rfl⟩
    · split at h <;> cases h
      exact ⟨_, rfl⟩

end Key

namespace Jwk

/-- What becomes of a key whose secret has either of two texts: it is refused for the same cause, or
the keys are peers, or either text has a fault of its own. -/
inductive BuiltAlike (member leftText rightText : String) :
    Except Error Key → Except Error Key → Prop
  | refused (cause : Error) : BuiltAlike member leftText rightText (.error cause) (.error cause)
  | built {left right : Key} : left.Peers right →
      BuiltAlike member leftText rightText (.ok left) (.ok right)
  | undecodable {left right : Base64Url.Fault} :
      Base64Url.decode leftText valueLimit = .error left →
      Base64Url.decode rightText valueLimit = .error right →
      BuiltAlike member leftText rightText (.error (.memberInvalid member (.undecodable left)))
        (.error (.memberInvalid member (.undecodable right)))

/-- Octets that make no key are refused otherwise than a text that writes none. -/
theorem not_sameKind_of_uniform {make : Octets → Except Error Key} (hmake : Key.Uniform make)
    (octets : Octets) (member : String) (fault : MemberFault) :
    ¬Outcome.SameKind (Outcome.ofExcept (make octets))
        (.error (.error (.memberInvalid member fault))) ∧
      ¬Outcome.SameKind (.error (.error (.memberInvalid member fault)))
        (Outcome.ofExcept (make octets)) := by
  cases hmade : make octets with
  | ok key => exact ⟨id, id⟩
  | error cause =>
      obtain ⟨_, rfl⟩ := hmake.keyInvalid hmade
      exact ⟨by rintro ⟨⟩, by rintro ⟨⟩⟩

theorem ReadAlike.build {member leftText rightText : String} {left right : Except Error Octets}
    (h : ReadAlike member leftText rightText left right) {make : Octets → Except Error Key}
    (hmake : Key.Uniform make)
    (hkind : Outcome.SameKind (Outcome.ofExcept (left >>= make))
      (Outcome.ofExcept (right >>= make))) :
    BuiltAlike member leftText rightText (left >>= make) (right >>= make) := by
  cases h with
  | refused cause => exact .refused cause
  | @read leftOctets rightOctets hlength =>
      change Outcome.SameKind (Outcome.ofExcept (make leftOctets))
        (Outcome.ofExcept (make rightOctets)) at hkind
      change BuiltAlike member leftText rightText (make leftOctets) (make rightOctets)
      cases hleft : make leftOctets with
      | error leftCause =>
          cases hright : make rightOctets with
          | error rightCause =>
              rw [hmake.cause hlength hleft hright]
              exact .refused _
          | ok rightKey =>
              rw [hleft, hright] at hkind
              exact hkind.elim
      | ok leftKey =>
          cases hright : make rightOctets with
          | error rightCause =>
              rw [hleft, hright] at hkind
              exact hkind.elim
          | ok rightKey => exact .built (hmake.peers hlength hleft hright)
  | undecodable hleft hright => exact .undecodable hleft hright
  | rightUndecodable octets fault => exact absurd hkind (not_sameKind_of_uniform hmake _ _ _).1
  | leftUndecodable fault octets => exact absurd hkind (not_sameKind_of_uniform hmake _ _ _).2

/-! ### Documents -/

variable {member leftText rightText : String} {left right : Members}

theorem DifferInSecret.find?_eq (h : DifferInSecret member leftText rightText left right)
    {name : String} (hname : name ∉ ["k", "d"]) : left.find? name = right.find? name := by
  obtain ⟨family, hmember, _⟩ := h.secret
  apply h.others
  rintro rfl
  cases family with
  | symmetric =>
      cases hmember
      exact hname (by decide)
  | rsa => cases hmember
  | ecdsa =>
      cases hmember
      exact hname (by decide)

theorem DifferInSecret.secretMember_eq (h : DifferInSecret member leftText rightText left right)
    {family : Family} (hfamily : left.find? "kty" = some (.string family.keyType)) :
    secretMember family = some member := by
  obtain ⟨found, hmember, hfound⟩ := h.secret
  rw [hfound] at hfamily
  have hkeyType : found.keyType = family.keyType := Json.string.inj (Option.some.inj hfamily)
  rwa [Family.keyType_injective hkeyType] at hmember

theorem DifferInSecret.family_eq (h : DifferInSecret member leftText rightText left right)
    (purpose : Purpose) (algorithm : Algorithm) :
    (Jwk.mk left).family purpose algorithm = (Jwk.mk right).family purpose algorithm := by
  have hkeyType : (Jwk.mk left).requiredText "kty" = (Jwk.mk right).requiredText "kty" :=
    requiredText_congr (h.find?_eq (by decide))
  have hnamed : (Jwk.mk left).text? "alg" = (Jwk.mk right).text? "alg" :=
    congrArg (Option.bind · Json.asString?) (h.find?_eq (by decide))
  simp only [Jwk.family, checkAlgorithm, hkeyType, hnamed]

/-- A key for signing is made of its secret, with nothing reported. -/
theorem signing_of_differ (h : DifferInSecret member leftText rightText left right)
    (algorithm : Algorithm) {family : Family}
    (hfamily : left.find? "kty" = some (.string family.keyType)) :
    ∃ leftKey rightKey : Except Error Key,
      ((mk left).signing algorithm family).run = ⟨Outcome.ofExcept leftKey, []⟩ ∧
      ((mk right).signing algorithm family).run = ⟨Outcome.ofExcept rightKey, []⟩ ∧
      (Outcome.SameKind (Outcome.ofExcept leftKey) (Outcome.ofExcept rightKey) →
        BuiltAlike member leftText rightText leftKey rightKey) := by
  have hread : ReadAlike member leftText rightText ((mk left).octets member)
      ((mk right).octets member) := octets_alike h.leftMember h.rightMember h.size
  have hmember := h.secretMember_eq hfamily
  cases family with
  | symmetric =>
      cases hmember
      exact ⟨_, _, rfl, rfl, hread.build Key.uniform_symmetric⟩
  | rsa => cases hmember
  | ecdsa =>
      cases hmember
      have hcurve : (mk left).curve algorithm = (mk right).curve algorithm := by
        simp only [Jwk.curve, requiredText_congr (h.find?_eq (by decide : "crv" ∉ ["k", "d"]))]
      refine ⟨(mk left).ecdsaSigningKey algorithm, (mk right).ecdsaSigningKey algorithm, rfl, rfl, ?_⟩
      rw [ecdsaSigningKey, ecdsaSigningKey, hcurve]
      cases (mk right).curve algorithm with
      | error cause => exact fun _ => .refused cause
      | ok curve => exact hread.build (Key.uniform_ofEcdsaScalar curve)

end Jwk

section

variable {algorithm : Algorithm} {member leftText rightText : String} {left right : Members}

theorem signingKey_of_differ (h : Jwk.DifferInSecret member leftText rightText left right)
    (hkind : Outcome.SameKind (signingKey (.object left) algorithm).run.value
      (signingKey (.object right) algorithm).run.value) :
    (signingKey (.object left) algorithm).run = (signingKey (.object right) algorithm).run ∨
      ∃ (events : List Event) (leftKey rightKey : Except Error Key),
        (signingKey (.object left) algorithm).run = ⟨Outcome.ofExcept leftKey, events⟩ ∧
        (signingKey (.object right) algorithm).run = ⟨Outcome.ofExcept rightKey, events⟩ ∧
        Jwk.BuiltAlike member leftText rightText leftKey rightKey := by
  rw [signingKey_object, signingKey_object, ← h.family_eq] at hkind ⊢
  cases hfound : ((Jwk.mk left).family .signing algorithm).run with
  | mk found events =>
      have hlifted := run_liftM hfound
      cases found with
      | error cause =>
          left
          rw [run_bind_error hlifted, run_bind_error hlifted]
      | ok family =>
          right
          have hkeyType := (Jwk.family_eq_ok (congrArg Logged.value hfound)).2
          obtain ⟨leftKey, rightKey, hleft, hright, hbuilt⟩ :=
            Jwk.signing_of_differ h algorithm hkeyType
          rw [run_bind_ok hlifted hleft, run_bind_ok hlifted hright] at hkind ⊢
          exact ⟨_, leftKey, rightKey, rfl, rfl, hbuilt hkind⟩

/-- Of elliptic-curve keys verification never reads the secret. -/
theorem verifyingKey_of_differ (h : Jwk.DifferInSecret member leftText rightText left right)
    (hkind : Outcome.SameKind
      (Outcome.ofExcept (verifyingKey (.object left) algorithm).run.value)
      (Outcome.ofExcept (verifyingKey (.object right) algorithm).run.value)) :
    (verifyingKey (.object left) algorithm).run = (verifyingKey (.object right) algorithm).run ∨
      ∃ (events : List Event) (leftKey rightKey : Except Error Key),
        (verifyingKey (.object left) algorithm).run = ⟨leftKey, events⟩ ∧
        (verifyingKey (.object right) algorithm).run = ⟨rightKey, events⟩ ∧
        Jwk.BuiltAlike member leftText rightText leftKey rightKey := by
  rw [verifyingKey_object, verifyingKey_object, ← h.family_eq] at hkind ⊢
  cases hfound : ((Jwk.mk left).family .verification algorithm).run with
  | mk found events =>
      cases found with
      | error cause =>
          left
          rw [run_bind_error hfound, run_bind_error hfound]
      | ok family =>
          have hmember := h.secretMember_eq (Jwk.family_eq_ok (congrArg Logged.value hfound)).2
          cases family with
          | symmetric =>
              right
              cases hmember
              rw [run_bind_ok hfound rfl, run_bind_ok hfound rfl] at hkind ⊢
              exact ⟨_, _, _, rfl, rfl,
                (Jwk.octets_alike h.leftMember h.rightMember h.size).build Key.uniform_symmetric hkind⟩
          | rsa => cases hmember
          | ecdsa =>
              left
              cases hmember
              have hsame : (Jwk.mk left).verifying algorithm .ecdsa =
                  (Jwk.mk right).verifying algorithm .ecdsa := by
                refine Jwk.verifying_congr algorithm fun name hname => h.find?_eq ?_
                revert name
                decide
              rw [run_bind_ok hfound rfl, run_bind_ok hfound (congrArg ExceptT.run hsame.symm)]

end

end WebToken
