import WebToken.Proofs.Token.Script

/-! In every state that a script returns with a token has a signature exactly when it has an algorithm, and
the algorithm is the one that its header names. Signing passes through states of which this is not true,
and leaves them again whatever it is refused for. If it breaks off it leaves the script in such a state:
the header names an algorithm, and there is no signature. -/

namespace WebToken

theorem Algorithm.ofName_name (algorithm : Algorithm) : ofName algorithm.name = .ok algorithm := by
  cases algorithm with
  | none => rfl
  | signing family hash => cases family <;> cases hash <;> rfl

namespace Token

theorem headerAlgorithm_insert (header : Members) (algorithm : Algorithm) :
    headerAlgorithm (header.insert "alg" (.string algorithm.name)) = algorithm := by
  rw [headerAlgorithm, Members.find?_insert, if_pos rfl]
  simp only [Option.bind_some, Json.asString?, Algorithm.ofName_name]

theorem headerAlgorithm_erase (header : Members) :
    headerAlgorithm (header.erase "alg") = .none := by
  rw [headerAlgorithm, Members.find?_erase, if_pos rfl]
  rfl

theorem headerAlgorithm_new (type : Option String) : headerAlgorithm (new type).header = .none :=
  rfl

/-- Algorithm and signature of the token agree with each other and with the header. -/
structure Consistent (token : Token) : Prop where
  none_iff : token.algorithm = .none ↔ token.signature.isEmpty = true
  named : token.algorithm = headerAlgorithm token.header

theorem isSigning_eq_false_iff (algorithm : Algorithm) :
    algorithm.isSigning = false ↔ algorithm = .none := by
  cases algorithm <;> simp [Algorithm.isSigning]

theorem Consistent.isSigning_eq {token : Token} (h : token.Consistent) :
    token.algorithm.isSigning = !token.signature.isEmpty := by
  cases hempty : token.signature.isEmpty with
  | true => exact (isSigning_eq_false_iff _).mpr (h.none_iff.mpr hempty)
  | false =>
      cases hsigning : token.algorithm.isSigning with
      | true => rfl
      | false =>
          have hnone := h.none_iff.mp ((isSigning_eq_false_iff _).mp hsigning)
          rw [hempty] at hnone
          cases hnone

theorem consistent_of_received {parts : Compact} {header claims : Members}
    (hfits : (headerAlgorithm header).isSigning ≠ parts.signature.isEmpty) :
    (received parts header claims).Consistent where
  none_iff := by
    rw [← isSigning_eq_false_iff]
    change (headerAlgorithm header).isSigning = false ↔ parts.signature.isEmpty = true
    cases hsigning : (headerAlgorithm header).isSigning <;>
      cases hempty : parts.signature.isEmpty <;> simp_all
  named := rfl

theorem consistent_of_initial {token : Token} (h : Script.Initial token) : token.Consistent := by
  cases h with
  | new type => exact ⟨iff_of_true rfl rfl, (headerAlgorithm_new type).symm⟩
  | read h =>
      obtain ⟨parts, _, hparts⟩ := (read_eq_ok_iff _ _).mp h
      obtain ⟨header, claims, _, _, hfits, rfl⟩ := (ofParts_eq_ok_iff _ _).mp hparts
      exact consistent_of_received hfits

/-- No operation on a token breaks its consistency. -/
theorem consistent_invariant : Script.Invariant (fun _ => True) Consistent where
  initial := consistent_of_initial
  settled h := ⟨h.none_iff, h.named⟩
  setClaim _ _ _ h := ⟨h.none_iff, h.named⟩
  removeClaim {token} name h := by
    rw [removeClaim]
    split
    · exact ⟨h.none_iff, h.named⟩
    · exact h
  signed {token algorithm signature} hsigning hlength _ := by
    refine ⟨iff_of_false ?_ ?_, (headerAlgorithm_insert token.header algorithm).symm⟩
    · intro hnone
      rw [show algorithm = .none from hnone] at hsigning
      cases hsigning
    · change signature.octets.isEmpty ≠ true
      rw [Ne, List.isEmpty_iff_length_eq_zero]
      exact Nat.ne_of_gt hlength
  unsigned {token} algorithm _ := by
    refine ⟨iff_of_true rfl rfl, ?_⟩
    exact (headerAlgorithm_erase (token.header.insert "alg" (.string algorithm.name))).symm

theorem consistent_of_returned {first : Token} (hfirst : Script.Initial first)
    {commands : List Script.Command} {session : Script.Session}
    (hsession : session ∈ Script.Session.returned ⟨first, none⟩ commands) :
    session.current.Consistent :=
  consistent_invariant.current hfirst (fun command _ => command.fits_trivial) hsession

/-- What a script leaves when it breaks off has neither algorithm nor signature, for all that its header
names. -/
theorem unsigned_of_brokenOff {session left : Script.Session} {commands : List Script.Command}
    (h : left ∈ session.brokenOff commands) :
    left.current.algorithm = .none ∧ left.current.signature.octets = [] ∧
      (headerAlgorithm left.current.header).isSigning = true := by
  obtain ⟨before, _, algorithm, _, _, hsigning, _, rfl⟩ := Script.Session.exists_of_brokenOff h
  refine ⟨rfl, rfl, ?_⟩
  change (headerAlgorithm (before.current.header.insert "alg" _)).isSigning = true
  rw [headerAlgorithm_insert, hsigning]

/-- In every state that a script returns with, the algorithm is none exactly when the signature is
empty, it is the one that reading would find in the header, and the signature is bounded. If the script
breaks off it leaves a token without algorithm and signature whose header names an algorithm. -/
theorem consistent_of_run {first : Token} (hfirst : Script.Initial first)
    (commands : List Script.Command) :
    (∀ session ∈ Script.Session.returned ⟨first, none⟩ commands,
      (session.current.algorithm = .none ↔ session.current.signature.octets = []) ∧
      session.current.algorithm = headerAlgorithm session.current.header ∧
      session.current.signature.octets.length ≤ 2048) ∧
    ∀ session ∈ Script.Session.brokenOff ⟨first, none⟩ commands,
      session.current.algorithm = .none ∧ session.current.signature.octets = [] ∧
      (headerAlgorithm session.current.header).isSigning = true := by
  constructor
  · intro session hsession
    have hconsistent := consistent_of_returned hfirst hsession
    refine ⟨?_, hconsistent.named, session.current.signature.bounded⟩
    rw [hconsistent.none_iff, BoundedOctets.isEmpty, List.isEmpty_iff]
  · exact fun session hsession => unsigned_of_brokenOff hsession

/-- A token with a signature is read, and signing it anew is refused: no algorithm is left. With a key
whose private exponent is zero signing breaks off, and the algorithm is left in the header alone. -/
theorem consistent_after_failed_sign :
    ∃ first session left, (read "eyJhbGciOiJIUzI1NiJ9.e30.AQID").run.value = .ok first ∧
      first.signature.octets = [1, 2, 3] ∧
      session ∈ Script.Session.returned ⟨first, none⟩
        [.sign (.signing .rsa .sha256) (.object [("kty", .string "oct")])] ∧
      session.current.header = [] ∧
      (session.current.algorithm = .none ↔ session.current.signature.octets = []) ∧
      session.current.algorithm = headerAlgorithm session.current.header ∧
      session.current.signature.octets.length ≤ 2048 ∧
      left ∈ Script.Session.brokenOff ⟨first, none⟩ [.sign (.signing .rsa .sha256)
        (.object [("kty", .string "RSA"), ("n", .string "Dw"), ("e", .string "AQAB"),
          ("d", .string "AA")])] ∧
      left.current.algorithm = .none ∧ left.current.signature.octets = [] ∧
      (headerAlgorithm left.current.header).isSigning = true := by
  let first : Token :=
    ⟨[("alg", .string "HS256")], [], some "\x7b\"alg\":\"HS256\"\x7d", some "\x7b\x7d",
      .signing .symmetric .sha256, ⟨[1, 2, 3], by decide⟩⟩
  have hread : (read "eyJhbGciOiJIUzI1NiJ9.e30.AQID").run.value = .ok first := rfl
  have hlast : (Script.Session.step ⟨first, none⟩
      (.sign (.signing .rsa .sha256) (.object [("kty", .string "oct")]))).value.1 ∈
        Script.Session.returned ⟨first, none⟩
          [.sign (.signing .rsa .sha256) (.object [("kty", .string "oct")])] :=
    Script.Session.step_mem_returned rfl
  have hcrash : (Script.Session.step ⟨first, none⟩ (.sign (.signing .rsa .sha256)
      (.object [("kty", .string "RSA"), ("n", .string "Dw"), ("e", .string "AQAB"),
        ("d", .string "AA")]))).value.2.returns = false := by
    decide +kernel
  have hleft := Script.Session.step_mem_brokenOff hcrash []
  obtain ⟨hnamed, hiff, hbounded⟩ := (consistent_of_run (.read hread) _).1 _ hlast
  exact ⟨first, _, _, hread, rfl, hlast, rfl, hnamed, hiff, hbounded, hleft,
    (consistent_of_run (.read hread) _).2 _ hleft⟩

end Token

end WebToken
