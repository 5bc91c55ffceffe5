import WebToken.Proofs.Json.Readable
import WebToken.Proofs.Nearest
import WebToken.Proofs.Token.Withdrawal

/-! The claims of a token over a whole script. A claim has the value that was last written to it; it
keeps its place until it is removed, and comes last when it is new. Nothing but setting and removing
claims touches them, and these touch nothing else. -/

namespace WebToken

namespace Members

/-- Gives a member a value, or removes it. -/
def update (members : Members) (name : String) : Option Json → Members
  | some value => members.insert name value
  | none => members.erase name

theorem find?_update (members : Members) (name other : String) (value : Option Json) :
    find? (update members name value) other = if other = name then value else find? members other := by
  cases value with
  | some value => exact find?_insert members name other value
  | none => exact find?_erase members name other

/-- The places of the members after one is given a value or removed: it keeps its place or comes last,
and what is removed leaves no gap. -/
inductive Rewritten (name : String) : Option Json → Members → Members → Prop where
  | replaced (front back : Members) (old value : Json) :
      Rewritten name (some value) (front ++ (name, old) :: back) (front ++ (name, value) :: back)
  | appended {members : Members} (hnew : name ∉ members.names) (value : Json) :
      Rewritten name (some value) members (members ++ [(name, value)])
  | removed (front back : Members) (old : Json) :
      Rewritten name none (front ++ (name, old) :: back) (front ++ back)
  | missing {members : Members} (hmissing : name ∉ members.names) :
      Rewritten name none members members

/-- A member that is there stands between others of which none has its name. -/
theorem exists_between {members : Members} (hunique : members.names.Nodup) {name : String}
    (h : name ∈ members.names) :
    ∃ (front back : Members) (old : Json), members = front ++ (name, old) :: back ∧
      name ∉ front.names ∧ name ∉ back.names := by
  obtain ⟨⟨found, old⟩, hmember, rfl⟩ := List.mem_map.mp h
  obtain ⟨front, back, rfl⟩ := List.append_of_mem hmember
  rw [names, List.map_append, List.map_cons, List.nodup_append] at hunique
  obtain ⟨_, hback, hapart⟩ := hunique
  refine ⟨front, back, old, rfl, fun hfront => ?_, (List.nodup_cons.mp hback).1⟩
  exact hapart _ hfront _ List.mem_cons_self rfl

theorem rewritten_update {members : Members} (hunique : members.names.Nodup) (name : String)
    (value : Option Json) : Rewritten name value members (members.update name value) := by
  by_cases hname : name ∈ members.names
  · obtain ⟨front, back, old, rfl, hfront, hback⟩ := exists_between hunique hname
    cases value with
    | some value =>
        have hinsert : update (front ++ (name, old) :: back) name (some value) =
            front ++ (name, value) :: back := by
          rw [update, insert, if_pos ((any_name_eq _ _).mpr hname), List.map_append, List.map_cons,
            replace_of_not_mem hfront, replace_of_not_mem hback, if_pos BEq.rfl]
        rw [hinsert]
        exact .replaced front back old value
    | none =>
        have herase : update (front ++ (name, old) :: back) name none = front ++ back := by
          calc erase (front ++ (name, old) :: back) name
              = erase front name ++ erase ((name, old) :: back) name := List.filter_append _ _
            _ = front ++ erase back name := by
              rw [erase_of_not_mem hfront, erase, List.filter_cons_of_neg (by simp)]
              rfl
            _ = front ++ back := by rw [erase_of_not_mem hback]
        rw [herase]
        exact .removed front back old
  · cases value with
    | some value =>
        rw [update, insert_of_not_mem hname]
        exact .appended hname value
    | none =>
        rw [update, erase_of_not_mem hname]
        exact .missing hname

end Members

/-- A number can be set if and only if it is finite. -/
theorem JsonNumber.ofBinary64?_eq_none_iff (value : Binary64) :
    ofBinary64? value = none ↔ value.isFinite = false := by
  rw [ofBinary64?]
  split
  · rename_i whole hwhole
    have hfinite : value.isFinite = true := by
      rw [Binary64.toInt?] at hwhole
      split at hwhole
      · rename_i hchecks
        exact (Bool.and_eq_true_iff.mp hchecks).1
      · cases hwhole
    split <;> simp [hfinite]
  · split <;> simp_all

/-- What a claim is set to is the number that was given. -/
theorem JsonNumber.toRat_of_ofBinary64? {value : Binary64} {number : JsonNumber}
    (h : ofBinary64? value = some number) :
    number.toBinary64.isFinite = true ∧ number.toBinary64.toRat = value.toRat := by
  rw [ofBinary64?] at h
  split at h
  · rename_i whole hwhole
    obtain ⟨hfinite, hvalue⟩ := (Binary64.toInt?_eq_some_iff _ _).mp hwhole
    split at h
    · rename_i hsmall
      cases h
      have hbound : whole.natAbs ≤ 2 ^ 53 := by omega
      rw [hvalue]
      exact Binary64.toRat_ofInt hbound
    · cases h
      exact ⟨hfinite, rfl⟩
  · split at h
    · rename_i hfinite
      cases h
      exact ⟨hfinite, rfl⟩
    · cases h

namespace Script

/-- The claim that a command sets or removes, with the value that it has then. -/
def Command.write? : Command → Option (String × Option Json)
  | .setNumber name value =>
      (JsonNumber.ofBinary64? value).map fun number => (name, some (.number number))
  | .setString name value => some (name, some (.string value))
  | .setClaim name value => some (name, some value)
  | .remove name => some (name, none)
  | _ => none

/-- What commands write last to a claim, if anything. -/
def lastWritten (commands : List Command) (name : String) : Option (Option Json) :=
  (commands.filterMap Command.write?).reverse.lookup name

theorem lastWritten_cons (command : Command) (commands : List Command) (name : String) :
    lastWritten (command :: commands) name =
      (lastWritten commands name).or (lastWritten [command] name) := by
  simp only [lastWritten]
  rw [← List.singleton_append, List.filterMap_append, List.reverse_append, List.lookup_append]

namespace Session

theorem run_getElem?_zero (session : Session) (command : Command) (commands : List Command) :
    (session.run (command :: commands)).value[0]? =
      some ((session.step command).value.2, (session.step command).value.1) := by
  cases hreturns : (session.step command).value.2.returns with
  | false =>
      rw [run_cons_of_crash hreturns]
      rfl
  | true =>
      rw [run_cons hreturns]
      rfl

/-- What comes after a step is the run of the other commands. -/
theorem getElem?_of_run_cons {session : Session} {command : Command} {commands : List Command}
    {index : Nat} {entry : Outcome Reply × Session}
    (h : (session.run (command :: commands)).value[index + 1]? = some entry) :
    (session.step command).value.2.returns = true ∧
      ((session.step command).value.1.run commands).value[index]? = some entry := by
  cases hreturns : (session.step command).value.2.returns with
  | false =>
      rw [run_cons_of_crash hreturns] at h
      cases h
  | true =>
      rw [run_cons hreturns] at h
      exact ⟨rfl, h⟩

/-- Each answer of a run is that of the command at its place, in the state before it. -/
theorem step_of_run {session after : Session} {commands : List Command} {index : Nat}
    {outcome : Outcome Reply}
    (h : (session.run commands).value[index]? = some (outcome, after)) :
    ∃ before command, (session.states commands)[index]? = some before ∧
      commands[index]? = some command ∧ (before.step command).value = (after, outcome) := by
  induction commands generalizing session index with
  | nil => cases h
  | cons command commands ih =>
      cases index with
      | zero =>
          rw [run_getElem?_zero] at h
          cases h
          exact ⟨session, command, rfl, rfl, rfl⟩
      | succ index =>
          obtain ⟨hreturns, h⟩ := getElem?_of_run_cons h
          obtain ⟨before, found, hbefore, hfound, hstep⟩ := ih h
          refine ⟨before, found, ?_, hfound, hstep⟩
          rw [states, run_cons hreturns]
          exact hbefore

/-- Setting or removing a claim changes the claims and nothing else, up to their text. -/
theorem step_of_write (session : Session) {command : Command} {name : String} {value : Option Json}
    (h : command.write? = some (name, value)) :
    ∃ text, (session.step command).value.1 = session.put
      { session.current with
        claims := session.current.claims.update name value
        claimsText := text } := by
  cases command with
  | setNumber name number =>
      obtain ⟨found, hfound, hwrite⟩ := Option.map_eq_some_iff.mp h
      cases hwrite
      refine ⟨none, ?_⟩
      simp only [step, Token.setNumber, hfound]
      rfl
  | setString name text =>
      cases h
      exact ⟨none, rfl⟩
  | setClaim name found =>
      cases h
      exact ⟨none, rfl⟩
  | remove name =>
      cases h
      simp only [step, Token.removeClaim]
      cases hclaim : session.current.claim? name with
      | none =>
          have hmissing := (Members.find?_eq_none_iff _ _).mp hclaim
          refine ⟨session.current.claimsText, ?_⟩
          rw [Members.update, Members.erase_of_not_mem hmissing]
          rfl
      | some value => exact ⟨none, rfl⟩
  | _ => cases h

theorem claims_of_no_write (session : Session) {command : Command} (hcommand : command.Continues)
    (h : command.write? = none) :
    (session.step command).value.1.current.claims = session.current.claims := by
  cases command with
  | refused cause => rfl
  | new type => exact hcommand.elim
  | read text => exact hcommand.elim
  | roundTrip => exact hcommand.elim
  | write withSignature => rfl
  | display => rfl
  | sign algorithm document =>
      change (session.current.sign algorithm document).value.1.claims = _
      obtain ⟨_, _, hvalue⟩ | ⟨_, _, ⟨failure, _, hvalue⟩ | ⟨_, _, hvalue⟩⟩ :=
        session.current.sign_cases algorithm document
      · rw [hvalue]
      · rw [hvalue]
        cases failure <;> rfl
      · rw [hvalue]
        rfl
  | checkSignature document =>
      change (session.current.hasValidSignature document).value.1.claims = _
      obtain hvalue | hvalue := session.current.hasValidSignature_token document
      · rw [hvalue]
      · rw [hvalue]
        rfl
  | setNumber name value =>
      have hnumber : JsonNumber.ofBinary64? value = none := Option.map_eq_none_iff.mp h
      simp only [step, Token.setNumber, hnumber]
      rfl
  | setString name value => cases h
  | setClaim name value => cases h
  | remove name => cases h
  | get name => rfl
  | save => rfl
  | restore => exact hcommand.elim

/-- How a command treats the claims of a token, and what it tells of them. A claim that it sets or
removes is rewritten in its place, and nothing else of the token with it; a finite number is written as a
number of that value. All other commands leave the claims alone, as does setting a number that is not
finite. -/
structure Treats (before : Token) (command : Command) (outcome : Outcome Reply) (after : Token) :
    Prop where
  written : ∀ name value, command.write? = some (name, value) →
    Members.Rewritten name value before.claims after.claims ∧ after.header = before.header ∧
      after.writtenHeader = before.writtenHeader ∧ after.algorithm = before.algorithm ∧
      after.signature = before.signature
  kept : command.write? = none → after.claims = before.claims
  removed : ∀ name, command = .remove name → outcome = .ok (.removed (before.claim? name))
  refused : ∀ name value, command = .setNumber name value → value.isFinite = false →
    command.write? = none ∧ outcome = .error (.error (.numberNotFinite value))
  done : ∀ name value, command = .setNumber name value → value.isFinite = true →
    (∃ number, command.write? = some (name, some (.number number)) ∧
      number.toBinary64.isFinite = true ∧ number.toBinary64.toRat = value.toRat) ∧
    outcome = .ok .done

theorem treats_step (session : Session) {command : Command} (hcommand : command.Continues)
    (hunique : session.current.claims.names.Nodup) :
    Treats session.current command (session.step command).value.2
      (session.step command).value.1.current where
  written name value hwrite := by
    obtain ⟨text, hstep⟩ := session.step_of_write hwrite
    rw [hstep]
    exact ⟨Members.rewritten_update hunique name value, rfl, rfl, rfl, rfl⟩
  kept := session.claims_of_no_write hcommand
  removed := by
    rintro name rfl
    change Except.ok (Reply.removed (session.current.removeClaim name).2) = _
    rw [Token.removeClaim]
    split
    · rename_i value hvalue
      rw [hvalue]
    · rename_i hmissing
      rw [hmissing]
  refused := by
    rintro name value rfl hfinite
    have hnumber := (JsonNumber.ofBinary64?_eq_none_iff value).mpr hfinite
    simp only [Command.write?, step, Token.setNumber, hnumber]
    exact ⟨rfl, rfl⟩
  done := by
    rintro name value rfl hfinite
    cases hnumber : JsonNumber.ofBinary64? value with
    | none =>
        rw [(JsonNumber.ofBinary64?_eq_none_iff value).mp hnumber] at hfinite
        cases hfinite
    | some number =>
        simp only [Command.write?, step, Token.setNumber, hnumber]
        exact ⟨⟨number, rfl, JsonNumber.toRat_of_ofBinary64? hnumber⟩, rfl⟩

/-- One step gives a claim the value that it writes, and leaves all other claims their values. -/
theorem claim?_step (session : Session) {command : Command} (hcommand : command.Continues)
    (name : String) :
    (session.step command).value.1.current.claim? name =
      (lastWritten [command] name).getD (session.current.claim? name) := by
  cases hwrite : command.write? with
  | none =>
      rw [Token.claim?, session.claims_of_no_write hcommand hwrite, lastWritten,
        List.filterMap_cons_none hwrite]
      rfl
  | some write =>
      obtain ⟨written, value⟩ := write
      obtain ⟨text, hstep⟩ := session.step_of_write hwrite
      rw [hstep, lastWritten, List.filterMap_cons_some hwrite]
      change Members.find? (session.current.claims.update written value) name =
        (List.lookup name [(written, value)]).getD (session.current.claims.find? name)
      rw [Members.find?_update, List.lookup_cons]
      by_cases hname : name = written
      · simp [hname]
      · rw [if_neg hname, beq_false_of_ne hname]
        rfl

/-- After so many commands a claim has the value that they wrote last, or that which it had at
first. -/
theorem claim?_run {session after : Session} {commands : List Command}
    (hcommands : ∀ command ∈ commands, command.Continues) {index : Nat} {outcome : Outcome Reply}
    (h : (session.run commands).value[index]? = some (outcome, after)) (name : String) :
    after.current.claim? name =
      (lastWritten (commands.take (index + 1)) name).getD (session.current.claim? name) := by
  induction commands generalizing session index with
  | nil => cases h
  | cons command commands ih =>
      obtain ⟨hcommand, hcommands⟩ := List.forall_mem_cons.mp hcommands
      have hfirst := session.claim?_step hcommand name
      cases index with
      | zero =>
          rw [run_getElem?_zero] at h
          cases h
          exact hfirst
      | succ index =>
          obtain ⟨_, h⟩ := getElem?_of_run_cons h
          rw [ih hcommands h, hfirst, List.take_succ_cons,
            lastWritten_cons command (commands.take _), Option.getD_or]

end Session

end Script

namespace Token

/-- No operation gives a token two claims of one name. -/
theorem claims_unique_invariant :
    Script.Invariant (fun _ => True) fun token => token.claims.names.Nodup where
  initial {token} h := by
    cases h with
    | new type => exact List.nodup_nil
    | read h =>
        obtain ⟨parts, _, hparts⟩ := (read_eq_ok_iff _ _).mp h
        obtain ⟨header, claims, _, hclaims, _, rfl⟩ := (ofParts_eq_ok_iff _ _).mp hparts
        exact ((Json.every_object_iff _).mp (Json.readable_of_parse hclaims).unique).1
  settled h := h
  setClaim name _ _ h := Members.nodup_names_insert h name _
  removeClaim {token} name h := by
    rw [removeClaim]
    split
    · exact Members.nodup_names_erase h name
    · exact h
  signed _ _ h := h
  unsigned _ h := h

/-- In every state of a script that goes on with one token, a claim has the value that was written to
it last, or else the one that the token started with; names of claims are unique; and the command that
led to the state treated the claims as it should. -/
theorem claims_of_run {first : Token} (hfirst : Script.Initial first)
    {commands : List Script.Command} (hcommands : ∀ command ∈ commands, command.Continues)
    {index : Nat} {outcome : Outcome Script.Reply} {after : Script.Session}
    (hafter : (Script.Session.run ⟨first, none⟩ commands).value[index]? = some (outcome, after)) :
    (∀ name, after.current.claim? name =
      (Script.lastWritten (commands.take (index + 1)) name).getD (first.claim? name)) ∧
    after.current.claims.names.Nodup ∧
    ∃ before command,
      (Script.Session.states ⟨first, none⟩ commands)[index]? = some before ∧
      commands[index]? = some command ∧
      Script.Session.Treats before.current command outcome after.current := by
  obtain ⟨before, command, hbefore, hcommand, hstep⟩ := Script.Session.step_of_run hafter
  have hunique : ∀ session ∈ Script.Session.states ⟨first, none⟩ commands,
      session.current.claims.names.Nodup := fun session hsession =>
    claims_unique_invariant.current_of_states hfirst (fun command _ => command.fits_trivial)
      (fun _ h => h) hsession
  have hmem : after ∈ Script.Session.states ⟨first, none⟩ commands :=
    List.mem_cons_of_mem _ (List.mem_map_of_mem (List.mem_of_getElem? hafter))
  have htreats := before.treats_step (hcommands command (List.mem_of_getElem? hcommand))
    (hunique before (List.mem_of_getElem? hbefore))
  rw [hstep] at htreats
  exact ⟨Script.Session.claim?_run hcommands hafter, hunique after hmem, before, command, hbefore,
    hcommand, htreats⟩

/-- Of two claims that are read the first is replaced and the second removed; then signing fails, a
number that is none is refused, the second claim is set anew, and a third one is set to minus five
halves. -/
theorem claims_of_mixed_run :
    ∃ (first : Token) (commands : List Script.Command) (after : Script.Session) (number : JsonNumber),
      (read "e30.eyJhIjoiMSIsImIiOiIyIn0.").run.value = .ok first ∧
      commands = [.setString "a" "3", .remove "b",
        .sign (.signing .rsa .sha256) (.object [("kty", .string "oct")]),
        .setNumber "a" ⟨0x7ff8000000000000⟩, .setClaim "b" .null,
        .setNumber "c" ⟨0xC004000000000000⟩] ∧
      (∀ command ∈ commands, command.Continues) ∧
      (Script.Session.run ⟨first, none⟩ commands).value[5]? = some (.ok .done, after) ∧
      after.current.claim? "a" = some (.string "3") ∧ after.current.claim? "b" = some .null ∧
      after.current.claim? "c" = some (.number number) ∧ number.toBinary64.toRat = -5 / 2 ∧
      after.current.claims.names = ["a", "b", "c"] ∧ after.current.claims.names.Nodup := by
  let first : Token :=
    ⟨[], [("a", .string "1"), ("b", .string "2")], some "\x7b\x7d",
      some "\x7b\"a\":\"1\",\"b\":\"2\"\x7d", .none, .empty⟩
  have hread : (read "e30.eyJhIjoiMSIsImIiOiIyIn0.").run.value = .ok first := rfl
  let commands : List Script.Command := [.setString "a" "3", .remove "b",
    .sign (.signing .rsa .sha256) (.object [("kty", .string "oct")]),
    .setNumber "a" ⟨0x7ff8000000000000⟩, .setClaim "b" .null,
    .setNumber "c" ⟨0xC004000000000000⟩]
  have hcommands : ∀ command ∈ commands, command.Continues := by
    simp [commands, Script.Command.Continues]
  have hafter : (Script.Session.run ⟨first, none⟩ commands).value[5]? = some (.ok .done, _) := rfl
  have hfinite : Binary64.isFinite ⟨0xC004000000000000⟩ = true := by decide
  have hvalue : Binary64.toRat ⟨0xC004000000000000⟩ = -5 / 2 := by decide +kernel
  obtain ⟨hvalues, hunique, _, _, _, hcommand, htreats⟩ :=
    claims_of_run (.read hread) hcommands hafter
  cases hcommand
  obtain ⟨⟨number, hwrite, _, hnumber⟩, _⟩ := htreats.done _ _ rfl hfinite
  have hlast : Script.lastWritten commands "c" =
      (Script.Command.write? (.setNumber "c" ⟨0xC004000000000000⟩)).map (·.2) := rfl
  rw [hwrite] at hlast
  exact ⟨first, commands, _, number, hread, rfl, hcommands, hafter, hvalues "a", hvalues "b",
    (hvalues "c").trans (congrArg (Option.getD · (first.claim? "c")) hlast), hnumber.trans hvalue, rfl,
    hunique⟩

end Token

end WebToken
