import WebToken.Proofs.Token.Claims
import WebToken.Proofs.Token.RoundTrip

/-! What a successful signature makes of a token, whatever was done to the token before. The header is
printed with the algorithm in its place, the text of the claims is kept to the letter, and the signature
covers these two and nothing else, so that neither the algorithm nor the signature that the token had
leaves a trace. -/

namespace WebToken.Token

/-- Preparing a token keeps only its other header members and its claims with their text. -/
theorem settled_prepared_congr {left right : Token} {algorithm : Algorithm}
    (hheader : left.header.insert "alg" (.string algorithm.name) =
      right.header.insert "alg" (.string algorithm.name))
    (hclaims : left.claims = right.claims) (htext : left.writtenClaims = right.writtenClaims) :
    (left.prepared algorithm).settled = (right.prepared algorithm).settled := by
  have hwritten : (left.prepared algorithm).writtenHeader =
      (right.prepared algorithm).writtenHeader := by
    change (Json.object (left.header.insert "alg" _)).print =
      (Json.object (right.header.insert "alg" _)).print
    rw [hheader]
  have hwrittenClaims : (left.prepared algorithm).writtenClaims =
      (right.prepared algorithm).writtenClaims := htext
  rw [settled, settled, hwritten, hwrittenClaims]
  simp only [prepared, hheader, hclaims]

/-- What is signed has the algorithm in the header and the claims as they were written before. -/
theorem signingInput_settled_prepared (token : Token) (algorithm : Algorithm) :
    (token.prepared algorithm).settled.signingInput =
      Octets.ofText (Compact.signingInput
        (Json.object (token.header.insert "alg" (.string algorithm.name))).print
        token.writtenClaims) := by
  rw [signingInput]
  rfl

/-- Signing looks at the prepared token only, once its arguments allow a signature. -/
theorem sign_eq_of_prepared {left right : Token} {algorithm : Algorithm} {document : Json}
    (hsigning : algorithm.isSigning = true) (hobject : document.asObject? ≠ none)
    (hprepared : (left.prepared algorithm).settled = (right.prepared algorithm).settled) :
    left.sign algorithm document = right.sign algorithm document := by
  obtain ⟨members, hmembers⟩ := Option.ne_none_iff_exists'.mp hobject
  simp [sign, hsigning, hmembers, hprepared]

/-- A token after a signature, beside the token before it. -/
structure SignedAnew (before : Token) (algorithm : Algorithm) (document : Json) (after : Token) :
    Prop where
  header : Members.Rewritten "alg" (some (.string algorithm.name)) before.header after.header
  headerText : after.headerText = some (Json.object after.header).print
  claims : after.claims = before.claims
  claimsText : after.claimsText = some before.writtenClaims
  named : after.algorithm = algorithm
  signature : ∃ key, (signingKey document algorithm).run.value = .ok key ∧
    (algorithm.sign key (Octets.ofText (Compact.signingInput (Json.object after.header).print
      before.writtenClaims))).run.value = .ok after.signature

namespace SignedAnew

variable {before after : Token} {algorithm : Algorithm} {document : Json}

theorem of_sign (hunique : before.header.names.Nodup)
    (h : (before.sign algorithm document).value = (after, .ok ())) :
    SignedAnew before algorithm document after := by
  obtain ⟨_, _, signature, hsigned, rfl⟩ := exists_signature_of_sign h
  obtain ⟨key, hkey, hmade⟩ := (computeSignature_eq_ok_iff _ _ _ _).mp hsigned
  rw [signingInput_settled_prepared] at hmade
  exact
    { header := Members.rewritten_update hunique "alg" (some (.string algorithm.name))
      headerText := rfl
      claims := rfl
      claimsText := rfl
      named := rfl
      signature := ⟨key, hkey, hmade⟩ }

/-- What the token writes is what its signature covers, followed by the signature. -/
theorem write_eq (h : SignedAnew before algorithm document after) :
    (after.write true).value.2 = Compact.write (Json.object after.header).print before.writtenClaims
      (some after.signature.octets) := by
  rw [value_write, writtenHeader, writtenClaims, h.headerText, h.claimsText]
  rfl

end SignedAnew

/-- A signature depends on nothing but the header and the claims with their text. -/
theorem sign_congr_of_ok {left right result : Token} {algorithm : Algorithm} {document : Json}
    (hsign : (left.sign algorithm document).value = (result, .ok ()))
    (hheader : left.header.insert "alg" (.string algorithm.name) =
      right.header.insert "alg" (.string algorithm.name))
    (hclaims : left.claims = right.claims) (htext : left.writtenClaims = right.writtenClaims) :
    (right.sign algorithm document).value = (result, .ok ()) := by
  obtain ⟨hsigning, hobject, _⟩ := exists_signature_of_sign hsign
  have hprepared := settled_prepared_congr hheader hclaims htext
  rw [← sign_eq_of_prepared hsigning hobject hprepared, hsign]

/-- In every state that a script leads to, a signature puts its algorithm in its place in the header,
keeps the claims with their text and covers what the token then writes. The outcome is the same for all
tokens of this header and these claims, whatever algorithm and signature they had before, and it is left
as it is when the same is signed once more. Signatures by P-521 may be made with any nonce, so the last
two are told of all other algorithms. -/
theorem signedAnew_of_sign {first : Token} (hfirst : Script.Initial first)
    {commands : List Script.Command} {session : Script.Session}
    (hsession : session ∈ Script.Session.states ⟨first, none⟩ commands) {algorithm : Algorithm}
    {document : Json} {result : Token}
    (hsign : (session.current.sign algorithm document).value = (result, .ok ())) :
    SignedAnew session.current algorithm document result ∧
      (result.write true).value.2 = Compact.write (Json.object result.header).print
        session.current.writtenClaims (some result.signature.octets) ∧
      (algorithm ≠ .signing .ecdsa .sha512 →
        (∀ other : Token, other.header = session.current.header →
          other.claims = session.current.claims →
          other.writtenClaims = session.current.writtenClaims →
          (other.sign algorithm document).value = (result, .ok ())) ∧
        (result.sign algorithm document).value = (result, .ok ())) := by
  have hunique := ((Json.every_object_iff _).mp (readable_header_of_states hfirst hsession).unique).1
  have hsigned := SignedAnew.of_sign hunique hsign
  refine ⟨hsigned, hsigned.write_eq, fun _ => ⟨?_, ?_⟩⟩
  · intro other hheader hclaims htext
    exact sign_congr_of_ok hsign (by rw [hheader]) hclaims.symm htext.symm
  · -- The header that was signed has the algorithm already.
    have hheader : result.header =
        session.current.header.insert "alg" (.string algorithm.name) := by
      obtain ⟨_, _, _, _, rfl⟩ := exists_signature_of_sign hsign
      rfl
    have htext : session.current.writtenClaims = result.writtenClaims := by
      rw [writtenClaims, writtenClaims, hsigned.claimsText]
      rfl
    refine sign_congr_of_ok hsign ?_ hsigned.claims.symm htext
    rw [hheader, Members.insert_insert]

/-- A token that was read with another signature and with a blank between the braces of its claims is
signed: the algorithm stays in front of the type, and the blank stays. -/
theorem signedAnew_of_blank_claims :
    ∃ first result, (read "eyJhbGciOiJIUzI1NiIsInR5cCI6IkpXVCJ9.eyB9.AQID").run.value = .ok first ∧
      (first.sign (.signing .symmetric .sha512) (.object [("kty", .string "oct"),
        ("k", .string "c2VjcmV0")])).value = (result, .ok ()) ∧
      result.headerText = some "\x7b\"alg\":\"HS512\",\"typ\":\"JWT\"\x7d" ∧
      result.claimsText = some "\x7b \x7d" ∧ result.signature.length = 64 ∧
      (result.sign (.signing .symmetric .sha512) (.object [("kty", .string "oct"),
        ("k", .string "c2VjcmV0")])).value = (result, .ok ()) := by
  let first : Token :=
    ⟨[("alg", .string "HS256"), ("typ", .string "JWT")], [],
      some "\x7b\"alg\":\"HS256\",\"typ\":\"JWT\"\x7d", some "\x7b \x7d",
      .signing .symmetric .sha256, ⟨[1, 2, 3], by decide⟩⟩
  let document : Json := .object [("kty", .string "oct"), ("k", .string "c2VjcmV0")]
  have hread : (read "eyJhbGciOiJIUzI1NiIsInR5cCI6IkpXVCJ9.eyB9.AQID").run.value = .ok first := rfl
  have hdone : (first.sign (.signing .symmetric .sha512) document).value.2 = .ok () ∧
      (first.sign (.signing .symmetric .sha512) document).value.1.headerText =
        some "\x7b\"alg\":\"HS512\",\"typ\":\"JWT\"\x7d" ∧
      (first.sign (.signing .symmetric .sha512) document).value.1.signature.length = 64 := by
    decide +kernel
  cases hsign : (first.sign (.signing .symmetric .sha512) document).value with
  | mk result outcome =>
      rw [hsign] at hdone
      obtain ⟨rfl, hheaderText, hlength⟩ := hdone
      obtain ⟨hsigned, _, hagain⟩ := signedAnew_of_sign (.read hread)
        (show _ ∈ Script.Session.states _ [] from List.mem_cons_self) hsign
      exact ⟨first, result, hread, hsign, hheaderText, hsigned.claimsText, hlength,
        (hagain (by decide)).2⟩

end WebToken.Token
