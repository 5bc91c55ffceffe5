import WebToken.Proofs.Token.Verification

/-! What is written tells what it was written of, however long it is, and so does what is signed. Two
tokens on which one secret has made the same signature say the same, or else the keyed hash of their
signed octets collides. -/

namespace WebToken

namespace Compact

theorem signingInput_injective {header claims otherHeader otherClaims : String}
    (h : signingInput header claims = signingInput otherHeader otherClaims) :
    header = otherHeader ∧ claims = otherClaims := by
  have hunsigned : write header claims none = write otherHeader otherClaims none := h
  obtain ⟨hheader, hclaims, _⟩ := parts_eq_of_write hunsigned
  exact ⟨hheader, hclaims⟩

/-- What is signed is no compact form with a signature. -/
theorem signingInput_ne_write (header claims otherHeader otherClaims : String)
    (signature : Octets) :
    signingInput header claims ≠ write otherHeader otherClaims (some signature) := by
  intro h
  have hunsigned : write header claims none = write otherHeader otherClaims (some signature) := h
  obtain ⟨_, _, hsignature⟩ := parts_eq_of_write hunsigned
  cases hsignature

end Compact

namespace Token

theorem texts_eq_of_signingInput {left right : Token} (h : left.signingInput = right.signingInput) :
    left.writtenHeader = right.writtenHeader ∧ left.writtenClaims = right.writtenClaims :=
  Compact.signingInput_injective (Octets.ofText_injective h)

/-- One signature that a secret finds valid on two tokens covers the same texts, or it is the keyed hash
of different octets. -/
theorem texts_eq_or_collision {left right : Token} {hash : Hash}
    (hleft : left.algorithm = .signing .symmetric hash)
    (hright : right.algorithm = .signing .symmetric hash)
    (hsignature : left.signature.octets = right.signature.octets) {document : Json}
    (hleftValid : (left.hasValidSignature document).value.2 = true)
    (hrightValid : (right.hasValidSignature document).value.2 = true) :
    (left.writtenHeader = right.writtenHeader ∧ left.writtenClaims = right.writtenClaims) ∨
      ∃ (members : Members) (secret : Octets), document = .object members ∧
        members.find? "kty" = some (.string "oct") ∧
        members.find? "k" = some (.string (Base64Url.encode secret)) ∧
        left.signingInput ≠ right.signingInput ∧
        hash.hmac secret left.signingInput = hash.hmac secret right.signingInput := by
  by_cases hinput : left.signingInput = right.signingInput
  · exact Or.inl (texts_eq_of_signingInput hinput)
  -- The document has one secret, as its text is the written form of one.
  · obtain ⟨members, secret, rfl, hkeyType, hsecret, _, _, hleftHash⟩ :=
      exists_secret_of_hasValidSignature hleft hleftValid
    obtain ⟨others, other, hdocument, _, hother, _, _, hrightHash⟩ :=
      exists_secret_of_hasValidSignature hright hrightValid
    obtain rfl : members = others := Json.object.inj hdocument
    obtain rfl : secret = other := by
      have hwritten := Option.some.inj (hsecret.symm.trans hother)
      exact Base64Url.encode_injective (Json.string.inj hwritten)
    exact Or.inr ⟨members, secret, rfl, hkeyType, hsecret, hinput,
      hleftHash.symm.trans (hsignature.trans hrightHash)⟩

/-- A compact form tells its texts and its signature, also if it has none; what is signed tells its
texts and is what stands before the last point. A signature made with a secret therefore covers two
tokens only if their texts are the same or what is signed of them collides. -/
theorem unambiguous_of_write :
    (∀ (header claims otherHeader otherClaims : String) (signature otherSignature : Option Octets),
      (Compact.encode header claims signature).value =
          (Compact.encode otherHeader otherClaims otherSignature).value →
        header = otherHeader ∧ claims = otherClaims ∧ signature = otherSignature) ∧
    (∀ (header claims otherHeader otherClaims : String) (signature : Octets),
      Compact.signingInput header claims ≠
        (Compact.encode otherHeader otherClaims (some signature)).value) ∧
    (∀ header claims otherHeader otherClaims : String,
      Compact.signingInput header claims = Compact.signingInput otherHeader otherClaims →
        header = otherHeader ∧ claims = otherClaims) ∧
    (∀ (header claims before last : String) (signature : Octets),
      (Compact.encode header claims (some signature)).value = before ++ "." ++ last ∧
          '.' ∉ last.toList ↔
        before = Compact.signingInput header claims ∧ last = Base64Url.encode signature) ∧
    ∀ (left right : Token) (hash : Hash) (document : Json),
      left.algorithm = .signing .symmetric hash → right.algorithm = .signing .symmetric hash →
      left.signature.octets = right.signature.octets →
      (left.hasValidSignature document).value.2 = true →
      (right.hasValidSignature document).value.2 = true →
        (left.writtenHeader = right.writtenHeader ∧ left.writtenClaims = right.writtenClaims) ∨
          ∃ (members : Members) (secret : Octets), document = .object members ∧
            members.find? "kty" = some (.string "oct") ∧
            members.find? "k" = some (.string (Base64Url.encode secret)) ∧
            left.signingInput ≠ right.signingInput ∧
            hash.hmac secret left.signingInput = hash.hmac secret right.signingInput := by
  refine ⟨fun header claims otherHeader otherClaims signature otherSignature h => ?_,
    fun header claims otherHeader otherClaims signature => ?_,
    fun header claims otherHeader otherClaims h => ?_,
    fun header claims before last signature => ?_,
    fun left right hash document hleft hright hsignature hleftValid hrightValid => ?_⟩
  · exact Compact.parts_eq_of_write h
  · exact Compact.signingInput_ne_write header claims otherHeader otherClaims signature
  · exact Compact.signingInput_injective h
  · exact Compact.write_eq_append_iff header claims before last signature
  · exact texts_eq_or_collision hleft hright hsignature hleftValid hrightValid

/-- A token that was read and the token built of the same members have one valid signature. -/
theorem unambiguous_of_letter_secret :
    ∃ (left right : Token) (document : Json),
      (read "eyJhbGciOiJIUzI1NiJ9.e30.bEionjP7X5J_VkgbZPrgfmAbNskfY4eG97AIRGA5kGg").run.value =
        .ok left ∧
      right.headerText = none ∧ right.claimsText = none ∧
      left.algorithm = .signing .symmetric .sha256 ∧
      right.algorithm = .signing .symmetric .sha256 ∧
      left.signature.octets = right.signature.octets ∧
      (left.hasValidSignature document).value.2 = true ∧
      (right.hasValidSignature document).value.2 = true ∧
      ((left.writtenHeader = right.writtenHeader ∧ left.writtenClaims = right.writtenClaims) ∨
        ∃ secret, left.signingInput ≠ right.signingInput ∧
          Hash.sha256.hmac secret left.signingInput =
            Hash.sha256.hmac secret right.signingInput) := by
  let mac : Octets :=
    [108, 72, 168, 158, 51, 251, 95, 146, 127, 86, 72, 27, 100, 250, 224, 126,
      96, 27, 54, 201, 31, 99, 135, 134, 247, 176, 8, 68, 96, 57, 144, 104]
  let left : Token :=
    ⟨[("alg", .string "HS256")], [], some "\x7b\"alg\":\"HS256\"\x7d", some "\x7b\x7d",
      .signing .symmetric .sha256, ⟨mac, by decide⟩⟩
  let right : Token := { left with headerText := none, claimsText := none }
  let document : Json := .object [("kty", .string "oct"), ("k", .string "YQ")]
  have hleft : (left.hasValidSignature document).value.2 = true := by decide +kernel
  have hright : (right.hasValidSignature document).value.2 = true := by decide +kernel
  refine ⟨left, right, document, rfl, rfl, rfl, rfl, rfl, rfl, hleft, hright, ?_⟩
  obtain ⟨_, _, _, _, hcovered⟩ := unambiguous_of_write
  refine (hcovered left right .sha256 document rfl rfl rfl hleft hright).imp_right ?_
  rintro ⟨_, secret, _, _, _, hinputs, hcollision⟩
  exact ⟨secret, hinputs, hcollision⟩

end Token

end WebToken
