import WebToken.Proofs.Json.Shape
import WebToken.Proofs.Token.Script
import WebToken.Proofs.Token.Verification

/-! What a failed attempt to sign leaves behind. Refused arguments change nothing; any later failure
leaves an unsigned token whose header has no algorithm. From then on a header is written as it stands,
with no algorithm but that of a later signature, or of a later attempt that breaks off. -/

namespace WebToken

namespace Token

/-! ### One attempt -/

theorem header_unsigned (token : Token) (algorithm : Algorithm) :
    (token.unsigned algorithm).header = token.header.erase "alg" :=
  Members.erase_insert token.header "alg" (.string algorithm.name)

/-- A failed attempt leaves the token alone or withdraws its signature. -/
theorem sign_failed_cases {token : Token} {algorithm : Algorithm} {document : Json} {cause : Error}
    (h : (token.sign algorithm document).value.2 = .error (.error cause)) :
    ((algorithm = .none ∨ document.asObject? = none) ∧
      (token.sign algorithm document).value.1 = token) ∨
    (algorithm ≠ .none ∧ document.asObject? ≠ none ∧
      (token.sign algorithm document).value.1 = token.unsigned algorithm) := by
  obtain ⟨hrefused, _, hvalue⟩ | ⟨hsigning, hobject, ⟨failure, _, hvalue⟩ | ⟨_, _, hvalue⟩⟩ :=
    token.sign_cases algorithm document
  · rw [isSigning_eq_false_iff] at hrefused
    exact Or.inl ⟨hrefused, congrArg Prod.fst hvalue⟩
  · rw [hvalue] at h ⊢
    cases h
    refine Or.inr ⟨?_, hobject, rfl⟩
    rintro rfl
    cases hsigning
  · rw [hvalue] at h
    cases h

theorem hasValidSignature_of_none {token : Token} (h : token.algorithm = .none) (document : Json) :
    (token.hasValidSignature document).value.2 = false := by
  rw [← Bool.not_eq_true, hasValidSignature_iff, h]
  exact fun hvalid => nomatch hvalid.1

/-! ### Later operations -/

/-- The token is written with a header, alone or with the algorithm of one of its signatures behind
it. -/
structure Shows (header : Members) (algorithms : List Algorithm) (token : Token) : Prop where
  printed : token.writtenHeader = (Json.object token.header).print
  members : token.algorithm = .none ∧ token.header = header ∨
    ∃ algorithm ∈ algorithms, token.algorithm = algorithm ∧
      token.header = header ++ [("alg", .string algorithm.name)]

namespace Shows

variable {header : Members} {algorithms : List Algorithm} {token : Token}

theorem mono (h : token.Shows header algorithms) {more : List Algorithm}
    (hmore : algorithms ⊆ more) : token.Shows header more := by
  refine ⟨h.printed, h.members.imp id ?_⟩
  rintro ⟨algorithm, hmem, hfound⟩
  exact ⟨algorithm, hmore hmem, hfound⟩

/-- It depends on nothing but algorithm and header. -/
theorem congr {other : Token} (h : token.Shows header algorithms)
    (halgorithm : other.algorithm = token.algorithm) (hheader : other.header = token.header)
    (hwritten : other.writtenHeader = token.writtenHeader) : other.Shows header algorithms := by
  refine ⟨?_, ?_⟩
  · rw [hwritten, hheader]
    exact h.printed
  · rw [halgorithm, hheader]
    exact h.members

theorem settled (h : token.Shows header algorithms) : token.settled.Shows header algorithms :=
  h.congr rfl rfl rfl

theorem removeClaim (h : token.Shows header algorithms) (name : String) :
    (token.removeClaim name).1.Shows header algorithms := by
  rw [Token.removeClaim]
  split
  · exact h.congr rfl rfl rfl
  · exact h

theorem hasValidSignature (h : token.Shows header algorithms) (document : Json) :
    (token.hasValidSignature document).value.1.Shows header algorithms := by
  obtain hvalue | hvalue := token.hasValidSignature_token document
  · rw [hvalue]
    exact h
  · rw [hvalue]
    exact h.settled

variable (hheader : "alg" ∉ header.names)
include hheader

/-- A failed attempt takes away the algorithm that an earlier signature had put there. -/
theorem unsigned (h : token.Shows header algorithms) (algorithm : Algorithm) :
    (token.unsigned algorithm).Shows header algorithms := by
  refine ⟨rfl, Or.inl ⟨rfl, ?_⟩⟩
  rw [header_unsigned]
  obtain ⟨_, hfound⟩ | ⟨_, _, _, hfound⟩ := h.members
  · rw [hfound, Members.erase_of_not_mem hheader]
  · rw [hfound, Members.erase_append_singleton, Members.erase_of_not_mem hheader]

/-- Preparing for a signature puts its algorithm in the place of an earlier one. -/
theorem header_prepared (h : token.Shows header algorithms) (algorithm : Algorithm) :
    (token.prepared algorithm).header = header ++ [("alg", .string algorithm.name)] := by
  change token.header.insert "alg" (.string algorithm.name) = _
  obtain ⟨_, hfound⟩ | ⟨_, _, _, hfound⟩ := h.members
  · rw [hfound, Members.insert_of_not_mem hheader]
  · rw [hfound, Members.insert_append_singleton hheader]

theorem signed (h : token.Shows header algorithms) (algorithm : Algorithm) (signature : Signature) :
    (token.signed algorithm signature).Shows header (algorithms ++ [algorithm]) := by
  have hlast : algorithm ∈ algorithms ++ [algorithm] :=
    List.mem_append_right _ (List.mem_singleton_self _)
  exact ⟨rfl, Or.inr ⟨algorithm, hlast, rfl, h.header_prepared hheader algorithm⟩⟩

end Shows

end Token

namespace Script

/-- Whether a command goes on with the current token, and puts no other in its place. -/
def Command.Continues : Command → Prop
  | .new _ | .read _ | .roundTrip | .restore => False
  | _ => True

/-- The algorithm of the signature that a command has made. -/
def Command.signing? : Command → Outcome Reply → Option Algorithm
  | .sign algorithm _, .ok _ => some algorithm
  | _, _ => none

namespace Session

/-- The algorithms of the signatures that a run makes, in order. -/
def signings (session : Session) (commands : List Command) : List Algorithm :=
  (commands.zip (session.run commands).value).filterMap fun (command, outcome, _) =>
    command.signing? outcome

theorem signings_cons {session : Session} {command : Command}
    (h : (session.step command).value.2.returns = true) (commands : List Command) :
    session.signings (command :: commands) =
      (command.signing? (session.step command).value.2).toList ++
        (session.step command).value.1.signings commands := by
  rw [signings, run_cons h, List.zip_cons_cons, List.filterMap_cons, signings]
  dsimp only
  cases command.signing? (session.step command).value.2 <;> rfl

end Session

variable {header : Members} (hheader : "alg" ∉ header.names)
include hheader

theorem shows_step {algorithms : List Algorithm} {session : Session}
    (h : session.current.Shows header algorithms) {command : Command} (hcommand : command.Continues)
    (hreturns : (session.step command).value.2.returns = true) :
    (session.step command).value.1.current.Shows header
      (algorithms ++ (command.signing? (session.step command).value.2).toList) := by
  have hsame : session.current.Shows header (algorithms ++ []) :=
    h.mono (List.subset_append_left _ _)
  cases command with
  | refused cause => exact hsame
  | new type => exact hcommand.elim
  | read text => exact hcommand.elim
  | roundTrip => exact hcommand.elim
  | write withSignature => exact hsame.settled
  | display => exact hsame.settled
  | sign algorithm document =>
      change (session.current.sign algorithm document).value.1.Shows header (algorithms ++
        (Command.signing? (.sign algorithm document)
          ((session.current.sign algorithm document).value.2.map fun _ => Reply.done)).toList)
      have hsign : (session.current.sign algorithm document).value.2.returns = true :=
        (Outcome.returns_map _ _).symm.trans hreturns
      obtain ⟨_, _, hvalue⟩ | ⟨_, _, ⟨failure, _, hvalue⟩ | ⟨signature, _, hvalue⟩⟩ :=
        session.current.sign_cases algorithm document
      · rw [hvalue]
        exact hsame
      · rw [hvalue] at hsign ⊢
        cases failure with
        | error cause => exact hsame.unsigned hheader algorithm
        | crash => cases hsign
      · rw [hvalue]
        exact h.signed hheader algorithm signature
  | checkSignature document => exact hsame.hasValidSignature document
  | setNumber name value =>
      simp only [Session.step, Token.setNumber]
      cases hnumber : JsonNumber.ofBinary64? value with
      | none => exact hsame
      | some number => exact hsame.congr rfl rfl rfl
  | setString name value => exact hsame.congr rfl rfl rfl
  | setClaim name value => exact hsame.congr rfl rfl rfl
  | remove name => exact hsame.removeClaim name
  | get name => exact hsame
  | save => exact hsame
  | restore => exact hcommand.elim

/-- As long as the token is not replaced, every state that a run returns with shows the header alone or
with the algorithm of one of the signatures made in the run. -/
theorem shows_run {algorithms : List Algorithm} {session : Session}
    (h : session.current.Shows header algorithms) {commands : List Command}
    (hcommands : ∀ command ∈ commands, command.Continues) :
    ∀ state ∈ session.returned commands,
      state.current.Shows header (algorithms ++ session.signings commands) := by
  induction commands generalizing session algorithms with
  | nil =>
      intro state hstate
      obtain rfl := List.mem_singleton.mp hstate
      exact h.mono (List.subset_append_left _ _)
  | cons command commands ih =>
      intro state hstate
      obtain ⟨hcommand, hcommands⟩ := List.forall_mem_cons.mp hcommands
      cases hreturns : (session.step command).value.2.returns with
      | false =>
          rw [Session.returned_cons_of_crash hreturns] at hstate
          obtain rfl := List.mem_singleton.mp hstate
          exact h.mono (List.subset_append_left _ _)
      | true =>
          rw [Session.signings_cons hreturns, ← List.append_assoc]
          rw [Session.returned_cons hreturns] at hstate
          rcases List.mem_cons.mp hstate with rfl | hstate
          · exact h.mono
              (List.Subset.trans (List.subset_append_left _ _) (List.subset_append_left _ _))
          · exact ih (shows_step hheader h hcommand hreturns) hcommands state hstate

end Script

namespace Token

/-- A failed attempt to sign leaves one of two states: the token as it was, if the arguments allow no
signature at all, or else an unsigned token without algorithm in its header, all else unchanged. Until
another attempt succeeds no document finds a signature valid, and the header is only ever written
without an algorithm, or with that of a later signature. Another attempt that breaks off makes no
signature either; it leaves its own algorithm in the header. -/
theorem sign_failed {token : Token} {algorithm : Algorithm} {document : Json} {cause : Error}
    (hfailed : (token.sign algorithm document).value.2 = .error (.error cause)) :
    (algorithm = .none ∨ document.asObject? = none) ∧
        (token.sign algorithm document).value.1 = token ∨
      algorithm ≠ .none ∧ document.asObject? ≠ none ∧
        ∃ after, (token.sign algorithm document).value.1 = after ∧
          after.algorithm = .none ∧ after.signature.octets = [] ∧
          after.header = token.header.filter (·.1 != "alg") ∧
          after.claims = token.claims ∧ after.writtenClaims = token.writtenClaims ∧
          ∀ saved commands, (∀ command ∈ commands, command.Continues) →
            (∀ session ∈ Script.Session.returned ⟨after, saved⟩ commands,
              (Script.Session.signings ⟨after, saved⟩ commands = [] →
                ∀ other, (session.current.hasValidSignature other).value.2 = false) ∧
              ∃ header,
                (header = after.header ∨ ∃ later ∈ Script.Session.signings ⟨after, saved⟩ commands,
                  header = after.header ++ [("alg", .string later.name)]) ∧
                ∀ withSignature, (session.current.write withSignature).value.2 =
                  Compact.write (Json.object header).print session.current.writtenClaims
                    (if withSignature then some session.current.signature.octets else none)) ∧
            ∀ session ∈ Script.Session.brokenOff ⟨after, saved⟩ commands,
              (∀ other, (session.current.hasValidSignature other).value.2 = false) ∧
              ∃ later other, .sign later other ∈ commands ∧ ∀ withSignature,
                (session.current.write withSignature).value.2 =
                  Compact.write (Json.object (after.header ++ [("alg", .string later.name)])).print
                    session.current.writtenClaims (if withSignature then some [] else none) := by
  refine (sign_failed_cases hfailed).imp id ?_
  rintro ⟨halgorithm, hobject, hafter⟩
  refine ⟨halgorithm, hobject, _, hafter, rfl, rfl, header_unsigned token algorithm, rfl, rfl, ?_⟩
  intro saved commands hcommands
  have hheader : "alg" ∉ (token.unsigned algorithm).header.names := by
    rw [header_unsigned]
    exact Members.not_mem_names_erase token.header "alg"
  have hstart : (Script.Session.mk (token.unsigned algorithm) saved).current.Shows
      (token.unsigned algorithm).header [] :=
    ⟨rfl, Or.inl ⟨rfl, rfl⟩⟩
  have hrun := Script.shows_run hheader hstart hcommands
  rw [List.nil_append] at hrun
  constructor
  · intro session hsession
    have hshows := hrun session hsession
    refine ⟨fun hnone other => ?_, session.current.header, ?_, fun withSignature => ?_⟩
    · rw [hnone] at hshows
      obtain ⟨hunsigned, _⟩ | ⟨_, hmem, _⟩ := hshows.members
      · exact hasValidSignature_of_none hunsigned other
      · cases hmem
    · refine hshows.members.imp And.right ?_
      rintro ⟨later, hmem, _, hfound⟩
      exact ⟨later, hmem, hfound⟩
    · rw [value_write, hshows.printed]
  · intro session hsession
    obtain ⟨before, hbefore, later, other, hcommand, _, _, rfl⟩ :=
      Script.Session.exists_of_brokenOff hsession
    have hprepared := (hrun before hbefore).header_prepared hheader later
    refine ⟨hasValidSignature_of_none rfl, later, other, hcommand, fun withSignature => ?_⟩
    rw [value_write, ← hprepared]
    rfl

/-- A signed token is read and signed anew with a key of the wrong type: what is left has no
algorithm, and writes none. -/
theorem sign_failed_of_wrong_key :
    ∃ first cause after, (read "eyJhbGciOiJIUzI1NiJ9.e30.AQID").run.value = .ok first ∧
      (first.sign (.signing .rsa .sha256) (.object [("kty", .string "oct")])).value =
        (after, .error (.error cause)) ∧
      after.algorithm = .none ∧ after.signature.octets = [] ∧ after.header = [] ∧
      (∀ other, (after.hasValidSignature other).value.2 = false) ∧
      (after.write true).value.2 = "e30.e30." := by
  let first : Token :=
    ⟨[("alg", .string "HS256")], [], some "\x7b\"alg\":\"HS256\"\x7d", some "\x7b\x7d",
      .signing .symmetric .sha256, ⟨[1, 2, 3], by decide⟩⟩
  have hread : (read "eyJhbGciOiJIUzI1NiJ9.e30.AQID").run.value = .ok first := rfl
  have hfailed : (first.sign (.signing .rsa .sha256) (.object [("kty", .string "oct")])).value =
      (_, .error (.error _)) := rfl
  obtain ⟨hrefused | hrefused, _⟩ | ⟨_, _, after, hafter, halgorithm, hsignature, hheader, _, _,
    hlater⟩ := sign_failed (congrArg Prod.snd hfailed)
  · cases hrefused
  · cases hrefused
  · obtain rfl := hafter
    obtain ⟨hreturned, _⟩ := hlater none [] (fun _ h => nomatch h)
    obtain ⟨hinvalid, _⟩ := hreturned _ List.mem_cons_self
    exact ⟨first, _, _, hread, hfailed, halgorithm, hsignature, hheader, hinvalid rfl, rfl⟩

end Token

end WebToken
