import WebToken.Proofs.Token.Operations
import WebToken.Token.Script

/-! Runs of scripts. What each operation on a token keeps holds in every state that a run returns with,
whether its operations succeed or are refused. Only signing can break off; it ends the run and leaves the
token as it was prepared. -/

namespace WebToken

/-- Whether an operation returned, done or refused, and did not break off. -/
def Outcome.returns {α : Type} : Outcome α → Bool
  | .error .crash => false
  | _ => true

theorem Outcome.returns_map {α β : Type} (outcome : Outcome α) (next : α → β) :
    Outcome.returns (outcome.map next) = outcome.returns := by
  cases outcome with
  | ok value => rfl
  | error failure => cases failure <;> rfl

namespace Script

/-- The tokens that a script can start from. -/
inductive Initial : Token → Prop where
  | new (type : Option String) : Initial (.new type)
  | read {text : String} {token : Token} (h : (Token.read text).run.value = .ok token) :
      Initial token

/-! ### The states of a run -/

namespace Session

/-- The sessions that a run passes through, its start included. -/
def states (session : Session) (commands : List Command) : List Session :=
  session :: (session.run commands).value.map (·.2)

/-- The sessions that the operations of a run return with, its start included. -/
def returned (session : Session) (commands : List Command) : List Session :=
  session :: ((session.run commands).value.filter fun entry => entry.1.returns).map (·.2)

/-- What is left of the session by an operation that broke off, if a run ends with one. -/
def brokenOff (session : Session) (commands : List Command) : List Session :=
  ((session.run commands).value.filter fun entry => !entry.1.returns).map (·.2)

variable {session state : Session} {command : Command} {commands : List Command}

/-- A step that returns is followed by the run of all other commands. -/
theorem run_cons (h : (session.step command).value.2.returns = true) :
    (session.run (command :: commands)).value =
      ((session.step command).value.2, (session.step command).value.1) ::
        ((session.step command).value.1.run commands).value := by
  rw [run, Logged.value_bind]
  dsimp only
  split
  · rename_i hcrash
    rw [hcrash] at h
    cases h
  · rfl

/-- A step that breaks off is the last. -/
theorem run_cons_of_crash (h : (session.step command).value.2.returns = false) :
    (session.run (command :: commands)).value =
      [((session.step command).value.2, (session.step command).value.1)] := by
  rw [run, Logged.value_bind]
  dsimp only
  split
  · rfl
  · rename_i hreturns
    rw [Outcome.returns.eq_2 _ hreturns] at h
    cases h

theorem mem_states_iff :
    state ∈ session.states commands ↔
      state ∈ session.returned commands ∨ state ∈ session.brokenOff commands := by
  simp only [states, returned, brokenOff, List.mem_cons, List.mem_map, List.mem_filter,
    Bool.not_eq_true', or_assoc]
  refine or_congr_right ⟨?_, ?_⟩
  · rintro ⟨entry, hentry, rfl⟩
    cases hreturns : entry.1.returns with
    | true => exact Or.inl ⟨entry, ⟨hentry, hreturns⟩, rfl⟩
    | false => exact Or.inr ⟨entry, ⟨hentry, hreturns⟩, rfl⟩
  · rintro (⟨entry, ⟨hentry, _⟩, rfl⟩ | ⟨entry, ⟨hentry, _⟩, rfl⟩)
    · exact ⟨entry, hentry, rfl⟩
    · exact ⟨entry, hentry, rfl⟩

theorem returned_cons (h : (session.step command).value.2.returns = true) :
    session.returned (command :: commands) =
      session :: (session.step command).value.1.returned commands := by
  simp [returned, run_cons h, h]

theorem returned_cons_of_crash (h : (session.step command).value.2.returns = false) :
    session.returned (command :: commands) = [session] := by
  simp [returned, run_cons_of_crash h, h]

theorem brokenOff_cons (h : (session.step command).value.2.returns = true) :
    session.brokenOff (command :: commands) =
      (session.step command).value.1.brokenOff commands := by
  simp [brokenOff, run_cons h, h]

theorem brokenOff_cons_of_crash (h : (session.step command).value.2.returns = false) :
    session.brokenOff (command :: commands) = [(session.step command).value.1] := by
  simp [brokenOff, run_cons_of_crash h, h]

/-- A step that returns is followed by the states of the commands after it. -/
theorem mem_returned_of_step (hreturns : (session.step command).value.2.returns = true)
    (h : state ∈ (session.step command).value.1.returned commands) :
    state ∈ session.returned (command :: commands) := by
  rw [returned_cons hreturns]
  exact List.mem_cons_of_mem _ h

theorem step_mem_returned (hreturns : (session.step command).value.2.returns = true) :
    (session.step command).value.1 ∈ session.returned [command] :=
  mem_returned_of_step hreturns List.mem_cons_self

theorem step_mem_brokenOff (hcrash : (session.step command).value.2.returns = false)
    (commands : List Command) :
    (session.step command).value.1 ∈ session.brokenOff (command :: commands) := by
  rw [brokenOff_cons_of_crash hcrash]
  exact List.mem_singleton_self _

/-- Only signing breaks off. -/
theorem step_brokenOff (h : (session.step command).value.2.returns = false) :
    ∃ algorithm document, command = .sign algorithm document ∧ algorithm.isSigning = true ∧
      (session.current.sign algorithm document).value.2 = .error .crash ∧
      (session.step command).value.1 =
        session.put (session.current.prepared algorithm).settled := by
  have htake : ∀ (found : Session) (text : String), (found.take text).value.2.returns = true := by
    intro found text
    rw [take, Logged.value_bind]
    cases (Token.read text).run.value <;> rfl
  cases command with
  | read text => cases (htake session text).symm.trans h
  | roundTrip =>
      cases (htake (session.write true).value.1 (session.write true).value.2).symm.trans h
  | sign algorithm document =>
      refine ⟨algorithm, document, rfl, ?_⟩
      change Outcome.returns ((session.current.sign algorithm document).value.2.map _) = false at h
      change _ ∧ _ ∧ session.put (session.current.sign algorithm document).value.1 = _
      obtain ⟨_, _, hvalue⟩ | ⟨hsigning, _, ⟨failure, _, hvalue⟩ | ⟨_, _, hvalue⟩⟩ :=
        session.current.sign_cases algorithm document
      · rw [hvalue] at h
        cases h
      · rw [hvalue] at h ⊢
        cases failure with
        | error cause => cases h
        | crash => exact ⟨hsigning, rfl, rfl⟩
      · rw [hvalue] at h
        cases h
  | setNumber name value =>
      rw [step] at h
      cases hset : session.current.setNumber name value <;> rw [hset] at h <;> cases h
  | _ => cases h

/-- What a run leaves when it breaks off is a token about to be signed. -/
theorem exists_of_brokenOff (h : state ∈ session.brokenOff commands) :
    ∃ before ∈ session.returned commands, ∃ algorithm document,
      .sign algorithm document ∈ commands ∧ algorithm.isSigning = true ∧
      (before.current.sign algorithm document).value.2 = .error .crash ∧
      state = before.put (before.current.prepared algorithm).settled := by
  induction commands generalizing session with
  | nil => cases h
  | cons command commands ih =>
      cases hreturns : (session.step command).value.2.returns with
      | false =>
        rw [brokenOff_cons_of_crash hreturns] at h
        obtain rfl := List.mem_singleton.mp h
        obtain ⟨algorithm, document, rfl, hsigning, hsign, hstep⟩ := step_brokenOff hreturns
        exact ⟨session, List.mem_cons_self, algorithm, document, List.mem_cons_self, hsigning, hsign,
          hstep⟩
      | true =>
        rw [brokenOff_cons hreturns] at h
        obtain ⟨before, hbefore, algorithm, document, hcommand, hfound⟩ := ih h
        exact ⟨before, mem_returned_of_step hreturns hbefore, algorithm, document,
          List.mem_cons_of_mem _ hcommand, hfound⟩

end Session

/-! ### Invariants -/

/-- Whether a command sets claims to fitting values only. -/
def Command.Fits (Fit : Json → Prop) : Command → Prop
  | .setString _ value => Fit (.string value)
  | .setNumber _ value => ∀ number ∈ JsonNumber.ofBinary64? value, Fit (.number number)
  | .setClaim _ value => Fit value
  | _ => True

theorem Command.fits_trivial (command : Command) : command.Fits fun _ => True := by
  cases command with
  | setNumber name value => exact fun _ _ => trivial
  | _ => trivial

/-- What all operations on tokens keep, as long as claims are set to fitting values. -/
structure Invariant (Fit : Json → Prop) (Holds : Token → Prop) : Prop where
  initial {token : Token} : Initial token → Holds token
  settled {token : Token} : Holds token → Holds token.settled
  setClaim {token : Token} (name : String) {value : Json} :
    Fit value → Holds token → Holds (token.setClaim name value)
  removeClaim {token : Token} (name : String) : Holds token → Holds (token.removeClaim name).1
  signed {token : Token} {algorithm : Algorithm} {signature : Signature} :
    algorithm.isSigning = true → 0 < signature.length → Holds token →
      Holds (token.signed algorithm signature)
  unsigned {token : Token} (algorithm : Algorithm) : Holds token → Holds (token.unsigned algorithm)

/-- Both tokens of the session satisfy a condition. -/
def Session.All (Holds : Token → Prop) (session : Session) : Prop :=
  Holds session.current ∧ ∀ saved ∈ session.saved, Holds saved

namespace Invariant

variable {Fit : Json → Prop} {Holds : Token → Prop}

theorem sign (hinv : Invariant Fit Holds) {token : Token} (htoken : Holds token)
    (algorithm : Algorithm) (document : Json)
    (hreturns : (token.sign algorithm document).value.2.returns = true) :
    Holds (token.sign algorithm document).value.1 := by
  obtain ⟨_, _, hvalue⟩ | ⟨hsigning, _, ⟨failure, _, hvalue⟩ | ⟨signature, hsigned, hvalue⟩⟩ :=
    token.sign_cases algorithm document
  · rw [hvalue]
    exact htoken
  · rw [hvalue] at hreturns ⊢
    cases failure with
    | error cause => exact hinv.unsigned algorithm htoken
    | crash => cases hreturns
  · rw [hvalue]
    exact hinv.signed hsigning (Token.length_pos_of_computeSignature hsigned) htoken

theorem hasValidSignature (hinv : Invariant Fit Holds) {token : Token} (htoken : Holds token)
    (document : Json) : Holds (token.hasValidSignature document).value.1 := by
  obtain hvalue | hvalue := token.hasValidSignature_token document
  · rw [hvalue]
    exact htoken
  · rw [hvalue]
    exact hinv.settled htoken

theorem take (hinv : Invariant Fit Holds) {session : Session} (hall : session.All Holds)
    (text : String) : (session.take text).value.1.All Holds := by
  rw [Session.take, Logged.value_bind]
  cases hread : (Token.read text).run.value with
  | ok token => exact ⟨hinv.initial (.read hread), hall.2⟩
  | error cause => exact hall

theorem step (hinv : Invariant Fit Holds) {session : Session} (hall : session.All Holds)
    (command : Command) (hfits : command.Fits Fit)
    (hreturns : (session.step command).value.2.returns = true) :
    (session.step command).value.1.All Holds := by
  cases command with
  | refused cause => exact hall
  | new type => exact ⟨hinv.initial (.new type), hall.2⟩
  | read text => exact hinv.take hall text
  | roundTrip =>
      have hwritten : (session.write true).value.1.All Holds := ⟨hinv.settled hall.1, hall.2⟩
      exact hinv.take hwritten (session.write true).value.2
  | write withSignature => exact ⟨hinv.settled hall.1, hall.2⟩
  | display => exact ⟨hinv.settled hall.1, hall.2⟩
  | sign algorithm document =>
      have hsign : (session.current.sign algorithm document).value.2.returns = true :=
        (Outcome.returns_map _ _).symm.trans hreturns
      exact ⟨hinv.sign hall.1 algorithm document hsign, hall.2⟩
  | checkSignature document => exact ⟨hinv.hasValidSignature hall.1 document, hall.2⟩
  | setNumber name value =>
      simp only [Session.step, Token.setNumber]
      cases hnumber : JsonNumber.ofBinary64? value with
      | none => exact hall
      | some number => exact ⟨hinv.setClaim name (hfits number hnumber) hall.1, hall.2⟩
  | setString name value => exact ⟨hinv.setClaim name hfits hall.1, hall.2⟩
  | setClaim name value => exact ⟨hinv.setClaim name hfits hall.1, hall.2⟩
  | remove name => exact ⟨hinv.removeClaim name hall.1, hall.2⟩
  | get name => exact hall
  | save =>
      refine ⟨hall.1, fun saved hsaved => ?_⟩
      cases hsaved
      exact hall.1
  | restore =>
      refine ⟨?_, hall.2⟩
      change Holds (session.saved.getD session.current)
      cases hsaved : session.saved with
      | none => exact hall.1
      | some saved => exact hall.2 saved hsaved

/-- Every state that a run returns with satisfies what holds at its start and is kept. -/
theorem run (hinv : Invariant Fit Holds) {session : Session} (hall : session.All Holds)
    (commands : List Command) (hfits : ∀ command ∈ commands, command.Fits Fit) :
    ∀ state ∈ session.returned commands, state.All Holds := by
  induction commands generalizing session with
  | nil =>
      intro state hstate
      obtain rfl := List.mem_singleton.mp hstate
      exact hall
  | cons command commands ih =>
      obtain ⟨hcommand, hcommands⟩ := List.forall_mem_cons.mp hfits
      intro state hstate
      cases hreturns : (session.step command).value.2.returns with
      | false =>
          rw [Session.returned_cons_of_crash hreturns] at hstate
          obtain rfl := List.mem_singleton.mp hstate
          exact hall
      | true =>
          rw [Session.returned_cons hreturns] at hstate
          obtain rfl | hstate := List.mem_cons.mp hstate
          · exact hall
          · exact ih (hinv.step hall command hcommand hreturns) hcommands state hstate

section

variable (hinv : Invariant Fit Holds) {first : Token} (hfirst : Initial first)
  {commands : List Command} (hfits : ∀ command ∈ commands, command.Fits Fit) {session : Session}
include hinv hfirst hfits

/-- What is kept holds of the token in every state that a script returns with. -/
theorem current (hsession : session ∈ Session.returned ⟨first, none⟩ commands) :
    Holds session.current := by
  have hstart : Session.All Holds ⟨first, none⟩ :=
    ⟨hinv.initial hfirst, fun saved hsaved => nomatch hsaved⟩
  exact (hinv.run hstart commands hfits session hsession).1

/-- What preparing a token keeps as well holds even of the token that is left when signing breaks
off. -/
theorem current_of_states
    (hprepared : ∀ {token : Token} (algorithm : Algorithm), Holds token →
      Holds (token.prepared algorithm))
    (hsession : session ∈ Session.states ⟨first, none⟩ commands) : Holds session.current := by
  obtain hreturned | hbroken := Session.mem_states_iff.mp hsession
  · exact hinv.current hfirst hfits hreturned
  · obtain ⟨before, hbefore, algorithm, _, _, _, _, rfl⟩ := Session.exists_of_brokenOff hbroken
    exact hinv.settled (hprepared algorithm (hinv.current hfirst hfits hbefore))

end

end Invariant

end Script

end WebToken
