import WebToken.Proofs.Json.RoundTrip
import WebToken.Proofs.Json.Readable
import WebToken.Proofs.Token.Consistent

/-! What a token writes it can read again: the same header and claims, algorithm and signature,
whatever was done to the token before. -/

namespace WebToken

/-- A text that is known for an object is the printed one or reads as the object. -/
def KnownText (members : Members) (known : Option String) : Prop :=
  ∀ text ∈ known,
    text = (Json.object members).print ∨ Json.parse text = .ok (.object members)

namespace KnownText

variable {members : Members} {known : Option String}

theorem none (members : Members) : KnownText members none :=
  fun _ h => nomatch h

theorem of_parse {text : String} (h : Json.parse text = .ok (.object members)) :
    KnownText members (some text) := by
  intro other hother
  cases hother
  exact Or.inr h

theorem settled (h : KnownText members known) :
    KnownText members (some (known.getD (Json.object members).print)) := by
  intro text htext
  cases htext
  cases known with
  | none => exact Or.inl rfl
  | some text => exact h text rfl

/-- The text of a token is printed, or it was read. -/
theorem getD_cases (h : KnownText members known) :
    known.getD (Json.object members).print = (Json.object members).print ∨
      Json.parse (known.getD (Json.object members).print) = .ok (.object members) := by
  cases known with
  | none => exact Or.inl rfl
  | some text => exact h text rfl

/-- The text of a token reads as an object like its own, if that is not too deep, and else not at
all. -/
theorem parse_cases (h : KnownText members known)
    (hunique : Json.Every Json.NamesUnique (.object members)) :
    ((Json.object members).depth ≤ 127 ∧ ∃ found,
      Json.parse (known.getD (Json.object members).print) = .ok (.object found) ∧
        Json.ReadBack (.object members) (.object found)) ∨
    (127 < (Json.object members).depth ∧ ∃ fault,
      Json.parse (known.getD (Json.object members).print) = .error fault) := by
  obtain htext | hparse := h.getD_cases
  · rw [htext]
    refine (Json.parse_print_cases hunique).imp ?_ id
    rintro ⟨hdepth, found, hparse, hfound⟩
    obtain ⟨others, rfl⟩ := hfound.exists_object
    exact ⟨hdepth, others, hparse, hfound⟩
  · exact Or.inl ⟨(Json.readable_of_parse hparse).depth_le, members, hparse, .refl _⟩

/-- The text of a token reads as the object, if the printed one would. -/
theorem parse_getD (h : KnownText members known) (hdepth : (Json.object members).depth ≤ 127)
    (hintegral : Json.Every Json.Integral (.object members))
    (hunique : Json.Every Json.NamesUnique (.object members)) :
    Json.parse (known.getD (Json.object members).print) = .ok (.object members) := by
  obtain htext | hparse := h.getD_cases
  · rw [htext]
    exact Json.parse_print hdepth hintegral hunique
  · exact hparse

end KnownText

namespace Token

/-- The texts of the token stand for its members, and these have unique names. -/
structure Faithful (token : Token) : Prop where
  header : KnownText token.header token.headerText
  claims : KnownText token.claims token.claimsText
  headerUnique : Json.Every Json.NamesUnique (.object token.header)
  claimsUnique : Json.Every Json.NamesUnique (.object token.claims)

theorem every_namesUnique_string (value : String) :
    Json.Every Json.NamesUnique (.string value) :=
  Json.every_scalar rfl trivial

theorem faithful_of_initial {token : Token} (h : Script.Initial token) : token.Faithful := by
  cases h with
  | new type =>
      have hempty : Json.Every Json.NamesUnique (.object []) :=
        Json.every_scalar rfl List.nodup_nil
      exact ⟨.none _, .none _,
        Json.every_namesUnique_insert hempty "typ" (every_namesUnique_string _), hempty⟩
  | read h =>
      obtain ⟨parts, _, hparts⟩ := (read_eq_ok_iff _ _).mp h
      obtain ⟨header, claims, hheader, hclaims, _, rfl⟩ := (ofParts_eq_ok_iff _ _).mp hparts
      exact ⟨.of_parse hheader, .of_parse hclaims, (Json.readable_of_parse hheader).unique,
        (Json.readable_of_parse hclaims).unique⟩

theorem Faithful.settled {token : Token} (h : token.Faithful) : token.settled.Faithful :=
  ⟨h.header.settled, h.claims.settled, h.headerUnique, h.claimsUnique⟩

theorem Faithful.prepared {token : Token} (h : token.Faithful) (algorithm : Algorithm) :
    (token.prepared algorithm).Faithful :=
  ⟨.none _, h.claims, Json.every_namesUnique_insert h.headerUnique "alg"
    (every_namesUnique_string _), h.claimsUnique⟩

/-- No operation on a token makes its texts stand for anything else. -/
theorem faithful_invariant :
    Script.Invariant (Json.Every Json.NamesUnique) Faithful where
  initial := faithful_of_initial
  settled h := h.settled
  setClaim name _ hvalue h :=
    ⟨h.header, .none _, h.headerUnique, Json.every_namesUnique_insert h.claimsUnique name hvalue⟩
  removeClaim {token} name h := by
    rw [removeClaim]
    split
    · exact ⟨h.header, .none _, h.headerUnique, Json.every_namesUnique_erase h.claimsUnique name⟩
    · exact h
  signed {token algorithm signature} _ _ h := by
    have hready := (h.prepared algorithm).settled
    exact ⟨hready.header, hready.claims, hready.headerUnique, hready.claimsUnique⟩
  unsigned {token} algorithm h := by
    have hready := (h.prepared algorithm).settled
    exact ⟨.none _, hready.claims, Json.every_namesUnique_erase hready.headerUnique "alg",
      hready.claimsUnique⟩

theorem readable_string {depth : Nat} (value : String) : Json.Readable depth (.string value) :=
  Json.readable_scalar rfl (every_namesUnique_string value)

/-- Whatever claims are set to, the header is one that may be read. -/
theorem readable_header_invariant :
    Script.Invariant (fun _ => True)
      (fun token => Json.Readable (126 + 1) (.object token.header)) where
  initial h := by
    cases h with
    | new type =>
        have hempty : Json.Readable (126 + 1) (.object []) :=
          Json.readable_object_iff.mpr ⟨List.nodup_nil, fun _ hmember => nomatch hmember⟩
        exact hempty.insert "typ" (readable_string _)
    | read h =>
        obtain ⟨parts, _, hparts⟩ := (read_eq_ok_iff _ _).mp h
        obtain ⟨header, claims, hheader, _, _, rfl⟩ := (ofParts_eq_ok_iff _ _).mp hparts
        exact Json.readable_of_parse hheader
  settled h := h
  setClaim _ _ _ h := h
  removeClaim {token} name h := by
    rw [removeClaim]
    split <;> exact h
  signed _ _ h := h.insert "alg" (readable_string _)
  unsigned _ h := (h.insert "alg" (readable_string _)).erase "alg"

theorem readable_header_of_states {first : Token} (hfirst : Script.Initial first)
    {commands : List Script.Command} {session : Script.Session}
    (hsession : session ∈ Script.Session.states ⟨first, none⟩ commands) :
    Json.Readable 127 (.object session.current.header) :=
  readable_header_invariant.current_of_states hfirst (fun command _ => command.fits_trivial)
    (fun _ h => h.insert "alg" (readable_string _)) hsession

theorem faithful_of_states {first : Token} (hfirst : Script.Initial first)
    {commands : List Script.Command}
    (hvalues : ∀ name value, .setClaim name value ∈ commands → Json.Every Json.NamesUnique value)
    {session : Script.Session} (hsession : session ∈ Script.Session.states ⟨first, none⟩ commands) :
    session.current.Faithful := by
  refine faithful_invariant.current_of_states hfirst (fun command hcommand => ?_)
    (fun algorithm h => h.prepared algorithm) hsession
  cases command with
  | setNumber name value => exact fun number _ => Json.every_scalar rfl trivial
  | setString name value => exact every_namesUnique_string value
  | setClaim name value => exact hvalues name value hcommand
  | _ => trivial

theorem headerAlgorithm_of_outline {left right : Members}
    (h : (Json.object left).outline = (Json.object right).outline) :
    headerAlgorithm left = headerAlgorithm right := by
  have hnamed : ∀ members : Members,
      (members.find? "alg").bind Json.asString? =
        (Members.find? (members.map fun member => (member.1, member.2.outline)) "alg").bind
          Json.asString? := by
    intro members
    rw [Json.find?_outline]
    cases members.find? "alg" with
    | none => rfl
    | some value => exact (Json.asString?_outline value).symm
  rw [Json.outline_object, Json.outline_object] at h
  injection h with h
  rw [headerAlgorithm, headerAlgorithm, hnamed left, hnamed right, h]

/-- A consistent token is read again from what it writes, with what its texts read as, if the header
that is read names the same algorithm. -/
theorem read_write_of_parse {token : Token} (hconsistent : token.Consistent) {header claims : Members}
    (hheader : Json.parse token.writtenHeader = .ok (.object header))
    (hclaims : Json.parse token.writtenClaims = .ok (.object claims))
    (hnamed : headerAlgorithm header = headerAlgorithm token.header)
    (hheaderSize : token.writtenHeader.utf8ByteSize ≤ 65536)
    (hclaimsSize : token.writtenClaims.utf8ByteSize ≤ 65536) :
    (read (token.write true).value.2).run.value =
      .ok { token.settled with header := header, claims := claims } := by
  have halgorithm : headerAlgorithm header = token.algorithm := hnamed.trans hconsistent.named.symm
  refine (read_eq_ok_iff _ _).mpr
    ⟨⟨token.writtenHeader, token.writtenClaims, token.signature⟩, ?_, ?_⟩
  · exact (Compact.read_eq_ok_iff _ _).mpr ⟨rfl, hheaderSize, hclaimsSize⟩
  · refine (ofParts_eq_ok_iff _ _).mpr ⟨header, claims, hheader, hclaims, ?_, ?_⟩
    -- A consistent token has a signature exactly when it has an algorithm.
    · rw [halgorithm, hconsistent.isSigning_eq]
      change (!token.signature.isEmpty) ≠ token.signature.isEmpty
      cases token.signature.isEmpty <;> decide
    · rw [received, halgorithm]
      rfl

/-- In every state that a script returns with, the token is read again from what it writes, provided
that its texts are short enough, its containers nest no deeper than a reader follows them and its
numbers are whole. Claims may be set to any values whose objects have one member for each name. -/
theorem read_write_of_run {first : Token} (hfirst : Script.Initial first)
    (commands : List Script.Command)
    (hvalues : ∀ name value, .setClaim name value ∈ commands → Json.Every Json.NamesUnique value)
    {session : Script.Session} (hsession : session ∈ Script.Session.returned ⟨first, none⟩ commands)
    (hheaderSize : session.current.writtenHeader.utf8ByteSize ≤ 65536)
    (hclaimsSize : session.current.writtenClaims.utf8ByteSize ≤ 65536)
    (hheaderDepth : (Json.object session.current.header).depth ≤ 127)
    (hclaimsDepth : (Json.object session.current.claims).depth ≤ 127)
    (hheader : Json.Every Json.Integral (.object session.current.header))
    (hclaims : Json.Every Json.Integral (.object session.current.claims)) :
    ∃ token, (read (session.current.write true).value.2).run.value = .ok token ∧
      token.header = session.current.header ∧ token.claims = session.current.claims ∧
      token.algorithm = session.current.algorithm ∧
      token.signature.octets = session.current.signature.octets ∧
      (token.write true).value.2 = (session.current.write true).value.2 := by
  have hfaithful :=
    faithful_of_states hfirst hvalues (Script.Session.mem_states_iff.mpr (Or.inl hsession))
  have hheaderText := hfaithful.header.parse_getD hheaderDepth hheader hfaithful.headerUnique
  have hclaimsText := hfaithful.claims.parse_getD hclaimsDepth hclaims hfaithful.claimsUnique
  exact ⟨session.current.settled,
    read_write_of_parse (consistent_of_returned hfirst hsession) hheaderText hclaimsText rfl hheaderSize
      hclaimsSize, rfl, rfl, rfl, rfl, rfl⟩

/-- A token with a signature takes the least whole number and characters that need escapes. -/
theorem read_write_of_escapes :
    ∃ first session token : _, (read "eyJhbGciOiJIUzI1NiJ9.e30.AQID").run.value = .ok first ∧
      session ∈ Script.Session.returned ⟨first, none⟩
        [.setClaim "a" (.array [.number (.integer (-0x8000000000000000) (by decide)),
          .string "\"\\\n"])] ∧
      (read (session.current.write true).value.2).run.value = .ok token ∧
      token.claims = [("a", .array [.number (.integer (-0x8000000000000000) (by decide)),
        .string "\"\\\n"])] ∧
      token.signature.octets = [1, 2, 3] := by
  let value : Json := .array [.number (.integer (-0x8000000000000000) (by decide)),
    .string "\"\\\n"]
  let first : Token :=
    ⟨[("alg", .string "HS256")], [], some "\x7b\"alg\":\"HS256\"\x7d", some "\x7b\x7d",
      .signing .symmetric .sha256, ⟨[1, 2, 3], by decide⟩⟩
  have hread : (read "eyJhbGciOiJIUzI1NiJ9.e30.AQID").run.value = .ok first := rfl
  have hlast : (Script.Session.step ⟨first, none⟩ (.setClaim "a" value)).value.1 ∈
      Script.Session.returned ⟨first, none⟩ [.setClaim "a" value] :=
    Script.Session.step_mem_returned rfl
  have hitems : ∀ part ∈ value.parts,
      part.parts = [] ∧ Json.Integral part ∧ Json.NamesUnique part :=
    List.forall_mem_cons.mpr ⟨⟨rfl, trivial, trivial⟩,
      List.forall_mem_cons.mpr ⟨⟨rfl, trivial, trivial⟩, fun _ h => nomatch h⟩⟩
  have hunique : Json.Every Json.NamesUnique value :=
    .intro trivial fun part hpart => Json.every_scalar (hitems part hpart).1 (hitems part hpart).2.2
  have hheader : Json.Every Json.Integral (.object [("alg", .string "HS256")]) :=
    .intro trivial fun part hpart => List.mem_singleton.mp hpart ▸ Json.every_scalar rfl trivial
  have hclaims : Json.Every Json.Integral (.object [("a", value)]) :=
    .intro trivial fun part hpart => List.mem_singleton.mp hpart ▸
      .intro trivial fun part hpart =>
        Json.every_scalar (hitems part hpart).1 (hitems part hpart).2.1
  obtain ⟨token, htoken, _, hset, _, hsignature, _⟩ :=
    read_write_of_run (.read hread) [.setClaim "a" value]
      (fun name set hset => by cases List.mem_singleton.mp hset; exact hunique) hlast
      (by decide) (by decide) (by decide) (by decide) hheader hclaims
  exact ⟨first, _, token, hread, hlast, htoken, hset, hsignature⟩

end Token

end WebToken
