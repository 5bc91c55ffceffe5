import WebToken.Proofs.Token.Script

/-! Tokens that keep no texts but those they were read from. The texts that a token fills in when it is
written or checked cannot be told from these: every script gets the same answers and reports the same
events from both. Commands that only look at a token can thus be put anywhere in a script. -/

namespace WebToken

/-- A token with the texts that it was read from, as far as they still stand for its members. -/
structure BareToken where
  header : Members
  claims : Members
  headerSource : Option String
  claimsSource : Option String
  algorithm : Algorithm
  signature : Signature

namespace BareToken

def new (type : Option String) : BareToken where
  header := [("typ", .string (type.getD Token.defaultType))]
  claims := []
  headerSource := none
  claimsSource := none
  algorithm := .none
  signature := .empty

/-- The text that the header was read from, or else its members printed. -/
def headerText (token : BareToken) : String :=
  token.headerSource.getD (Json.object token.header).print

def claimsText (token : BareToken) : String :=
  token.claimsSource.getD (Json.object token.claims).print

/-- What the signature of the token covers. -/
def signingInput (token : BareToken) : Octets :=
  Octets.ofText (Compact.signingInput token.headerText token.claimsText)

def ofParts (parts : Compact) : Except Error BareToken := do
  let header ← Token.readObject .header parts.header
  let claims ← Token.readObject .claims parts.claims
  let algorithm := Token.headerAlgorithm header
  if algorithm.isSigning = parts.signature.isEmpty then
    .error (.signatureMismatch algorithm parts.signature.length)
  else .ok ⟨header, claims, some parts.header, some parts.claims, algorithm, parts.signature⟩

def read (text : String) : Attempt BareToken := do
  let parts ← Compact.decode text
  let token ← ofParts parts
  Attempt.report (.imported token.algorithm token.claims.length token.signature.length)
  return token

def write (token : BareToken) (withSignature : Bool) : Logged String :=
  Compact.encode token.headerText token.claimsText
    (if withSignature then some token.signature.octets else none)

/-- The token after an attempt to sign it was refused. -/
def withdrawn (token : BareToken) : BareToken :=
  { token with header := token.header.erase "alg", headerSource := none }

/-- The signature for a token that is prepared for it. -/
def computeSignature (token : BareToken) (algorithm : Algorithm) (document : Json) :
    Action Signature := do
  let found ← ExceptT.lift (signingKey document algorithm).run
  match found with
  | .ok key => algorithm.sign key token.signingInput
  | .error (.error cause) =>
      Attempt.report (.signingKeyRejected algorithm cause)
      throw (.error cause)
  | .error .crash => throw .crash

/-- The token about to be signed. From here on the header is printed, whatever comes of it. -/
def prepared (token : BareToken) (algorithm : Algorithm) : BareToken :=
  { token with
    header := token.header.insert "alg" (.string algorithm.name)
    headerSource := none
    algorithm := .none
    signature := .empty }

/-- Signs the token. What breaks off leaves it as it was prepared. -/
def sign (token : BareToken) (algorithm : Algorithm) (document : Json) :
    Logged (BareToken × Outcome Unit) := do
  if !algorithm.isSigning then return (token, .error (.error .noneCannotSign))
  if document.asObject?.isNone then return (token, .error (.error .keyDocumentMissing))
  let ready := token.prepared algorithm
  match ← (ready.computeSignature algorithm document).run with
  | .ok signature =>
      return ({ ready with algorithm := algorithm, signature := signature }, .ok ())
  | .error (.error cause) => return (ready.withdrawn, .error (.error cause))
  | .error .crash => return (ready, .error .crash)

def hasValidSignature (token : BareToken) (document : Json) : Logged Bool := do
  if !token.algorithm.isSigning || token.signature.isEmpty then
    Logged.report .unsigned
    return false
  match ← (verifyingKey document token.algorithm).run with
  | .ok key => token.algorithm.verify key token.signingInput token.signature.octets
  | .error cause =>
      Logged.report (.verifyingKeyRejected token.algorithm cause)
      return false

/-- Sets a claim: the claims are printed from then on. -/
def setClaim (token : BareToken) (name : String) (value : Json) : BareToken :=
  { token with claims := token.claims.insert name value, claimsSource := none }

/-- Removes a claim; if it is there, the claims are printed from then on. -/
def removeClaim (token : BareToken) (name : String) : BareToken × Option Json :=
  match token.claims.find? name with
  | some value =>
      ({ token with claims := token.claims.erase name, claimsSource := none }, some value)
  | none => (token, none)

end BareToken

/-- What can be told of a token without writing it: all its readers are functions of this. -/
structure VisibleToken where
  header : Members
  claims : Members
  algorithm : Algorithm
  signature : Signature

def Token.visible (token : Token) : VisibleToken :=
  ⟨token.header, token.claims, token.algorithm, token.signature⟩

def BareToken.visible (token : BareToken) : VisibleToken :=
  ⟨token.header, token.claims, token.algorithm, token.signature⟩

namespace Script

structure BareSession where
  current : BareToken
  saved : Option BareToken

namespace BareSession

def start : BareSession := ⟨.new none, none⟩

def put (session : BareSession) (token : BareToken) : BareSession :=
  { session with current := token }

def take (session : BareSession) (text : String) : Logged (BareSession × Outcome Reply) := do
  match ← (BareToken.read text).run with
  | .ok token => return (session.put token, .ok .done)
  | .error cause => return (session, .error (.error cause))

def view (session : BareSession) (name : String) : ClaimView :=
  let value := session.current.claims.find? name
  ⟨(value.map Json.kind).getD .null, value.bind Json.asNumber?, value.bind Json.asString?, value⟩

/-- Carries out one command. Those that only look at the token leave the session as it is. -/
def step (session : BareSession) : Command → Logged (BareSession × Outcome Reply)
  | .refused cause => return (session, .error (.error cause))
  | .new type => return (session.put (.new type), .ok .done)
  | .read text => session.take text
  | .roundTrip => do
      let text ← session.current.write true
      session.take text
  | .write withSignature => do
      let text ← session.current.write withSignature
      return (session, .ok (.text text))
  | .display => do
      let text ← session.current.write true
      return (session, .ok (.text text))
  | .sign algorithm document => do
      let (token, outcome) ← session.current.sign algorithm document
      return (session.put token, outcome.map fun _ => .done)
  | .checkSignature document => do
      let valid ← session.current.hasValidSignature document
      return (session, .ok (.valid valid))
  | .setNumber name value =>
      match JsonNumber.ofBinary64? value with
      | some number => return (session.put (session.current.setClaim name (.number number)), .ok .done)
      | none => return (session, .error (.error (.numberNotFinite value)))
  | .setString name value =>
      return (session.put (session.current.setClaim name (.string value)), .ok .done)
  | .setClaim name value => return (session.put (session.current.setClaim name value), .ok .done)
  | .remove name =>
      let (token, value) := session.current.removeClaim name
      return (session.put token, .ok (.removed value))
  | .get name => return (session, .ok (.claim (session.view name)))
  | .save => return ({ session with saved := some session.current }, .ok .done)
  | .restore => return (session.put (session.saved.getD session.current), .ok .done)

/-- Carries out commands in order, up to one that breaks off. Each answer comes with what can be told
of the token after it. -/
def answers (session : BareSession) : List Command → Logged (List (Outcome Reply × VisibleToken))
  | [] => return []
  | command :: commands => do
      let (session, outcome) ← session.step command
      match outcome with
      | .error .crash => return [(outcome, session.current.visible)]
      | _ =>
          let rest ← session.answers commands
          return (outcome, session.current.visible) :: rest

end BareSession

/-- The answers of a run, each with what can be told of the token after it. -/
def Session.answers (session : Session) (commands : List Command) :
    Logged (List (Outcome Reply × VisibleToken)) := do
  let states ← session.run commands
  return states.map fun (outcome, state) => (outcome, state.current.visible)

end Script

namespace Logged

/-- Two operations give related states and the same results, and report the same events. -/
structure Matches {σ τ α : Type} (Related : σ → τ → Prop) (left : Logged (σ × α))
    (right : Logged (τ × α)) : Prop where
  state : Related left.value.1 right.value.1
  result : left.value.2 = right.value.2
  events : left.events = right.events

section

variable {σ τ α β : Type} {Related : σ → τ → Prop}

theorem matches_pure {left : σ} {right : τ} (h : Related left right) (result : α) :
    Matches Related (pure (left, result)) (pure (right, result)) :=
  ⟨h, rfl, rfl⟩

/-- What goes on from related states and the same result in the same way matches again. -/
theorem Matches.bind {σ' τ' : Type} {Later : σ' → τ' → Prop} {left : Logged (σ × α)}
    {right : Logged (τ × α)} (h : Matches Related left right)
    {leftNext : σ × α → Logged (σ' × β)} {rightNext : τ × α → Logged (τ' × β)}
    (hnext : ∀ state other result, Related state other →
      Matches Later (leftNext (state, result)) (rightNext (other, result))) :
    Matches Later (left >>= leftNext) (right >>= rightNext) := by
  have hlater := hnext left.value.1 right.value.1 left.value.2 h.state
  have hright : (right.value.1, left.value.2) = right.value := by rw [h.result]
  rw [hright] at hlater
  refine ⟨hlater.state, hlater.result, ?_⟩
  rw [events_bind, events_bind, h.events]
  exact congrArg _ hlater.events

/-- The same, if the other operation only looks at its state. -/
theorem Matches.bind_look {σ' τ' : Type} {Later : σ' → τ' → Prop} {left : Logged (σ × α)} {other : τ}
    {look : Logged α} (h : Matches Related left ((other, ·) <$> look))
    {leftNext : σ × α → Logged (σ' × β)} {rightNext : α → Logged (τ' × β)}
    (hnext : ∀ state result, Related state other →
      Matches Later (leftNext (state, result)) (rightNext result)) :
    Matches Later (left >>= leftNext) (look >>= rightNext) := by
  have hlater := hnext left.value.1 left.value.2 h.state
  have hresult : left.value.2 = look.value := h.result
  have hevents : left.events = look.events := h.events.trans (List.append_nil _)
  rw [hresult] at hlater
  have hnextState : (left >>= leftNext).value = (leftNext (left.value.1, look.value)).value := by
    rw [value_bind, ← hresult]
  have hnextEvents : (left >>= leftNext).events =
      look.events ++ (leftNext (left.value.1, look.value)).events := by
    rw [events_bind, hevents, ← hresult]
  refine ⟨?_, ?_, ?_⟩
  · rw [hnextState]
    exact hlater.state
  · rw [hnextState]
    exact hlater.result
  · rw [hnextEvents, hlater.events, events_bind]

theorem Matches.bind_eq {left : Logged (σ × α)} {right : Logged (τ × α)}
    (h : Matches Related left right) {leftNext : σ × α → Logged β} {rightNext : τ × α → Logged β}
    (hnext : ∀ state other result, Related state other →
      leftNext (state, result) = rightNext (other, result)) :
    left >>= leftNext = right >>= rightNext := by
  have hlater := hnext left.value.1 right.value.1 left.value.2 h.state
  have hright : (right.value.1, left.value.2) = right.value := by rw [h.result]
  rw [hright] at hlater
  apply ext_parts
  · rw [value_bind, value_bind]
    exact congrArg value hlater
  · rw [events_bind, events_bind, h.events]
    exact congrArg (right.events ++ ·.events) hlater

theorem matches_bind_same (first : Logged β) {left : β → Logged (σ × α)} {right : β → Logged (τ × α)}
    (h : ∀ value, Matches Related (left value) (right value)) :
    Matches Related (first >>= left) (first >>= right) := by
  have hlater := h first.value
  exact ⟨hlater.state, hlater.result, congrArg (first.events ++ ·) hlater.events⟩

end

end Logged

/-! ### One operation -/

namespace Token

/-- Token and bare token have the same members and are written in the same way. -/
structure Agrees (token : Token) (bare : BareToken) : Prop where
  header : token.header = bare.header
  claims : token.claims = bare.claims
  algorithm : token.algorithm = bare.algorithm
  signature : token.signature = bare.signature
  headerText : token.writtenHeader = bare.headerText
  claimsText : token.writtenClaims = bare.claimsText

theorem agrees_new (type : Option String) : (new type).Agrees (.new type) :=
  ⟨rfl, rfl, rfl, rfl, rfl, rfl⟩

/-- The token that starts out with the texts that the bare one was read from. -/
def ofBare (bare : BareToken) : Token where
  header := bare.header
  claims := bare.claims
  headerText := bare.headerSource
  claimsText := bare.claimsSource
  algorithm := bare.algorithm
  signature := bare.signature

theorem agrees_ofBare (bare : BareToken) : (ofBare bare).Agrees bare :=
  ⟨rfl, rfl, rfl, rfl, rfl, rfl⟩

theorem ofParts_eq_map (parts : Compact) : ofParts parts = ofBare <$> BareToken.ofParts parts := by
  rw [ofParts, BareToken.ofParts]
  cases readObject .header parts.header with
  | error cause => rfl
  | ok header =>
      cases readObject .claims parts.claims with
      | error cause => rfl
      | ok claims =>
          change (if _ then _ else _) = _ <$> (if _ then _ else _)
          split <;> rfl

theorem read_eq_map (text : String) : read text = ofBare <$> BareToken.read text := by
  simp only [read, BareToken.read, map_bind, map_pure]
  congr 1
  funext parts
  rw [ofParts_eq_map]
  cases BareToken.ofParts parts with
  | error cause => rfl
  | ok bare => rfl

namespace Agrees

variable {token : Token} {bare : BareToken} (h : token.Agrees bare)
include h

theorem visible : token.visible = bare.visible := by
  rw [Token.visible, BareToken.visible, h.header, h.claims, h.algorithm, h.signature]

/-- Filling in the texts changes nothing. -/
theorem settled : token.settled.Agrees bare :=
  ⟨h.header, h.claims, h.algorithm, h.signature, h.headerText, h.claimsText⟩

theorem signingInput : token.signingInput = bare.signingInput := by
  rw [Token.signingInput, BareToken.signingInput, h.headerText, h.claimsText]

theorem setClaim (name : String) (value : Json) :
    (token.setClaim name value).Agrees (bare.setClaim name value) := by
  rw [Token.setClaim, BareToken.setClaim, h.claims]
  exact ⟨h.header, rfl, h.algorithm, h.signature, h.headerText, rfl⟩

/-- A claim that is not there is not removed, and the texts stay. -/
theorem removeClaim (name : String) :
    (token.removeClaim name).1.Agrees (bare.removeClaim name).1 ∧
      (token.removeClaim name).2 = (bare.removeClaim name).2 := by
  rw [Token.removeClaim, BareToken.removeClaim, claim?, h.claims]
  cases bare.claims.find? name with
  | none => exact ⟨h, rfl⟩
  | some value =>
      exact ⟨⟨h.header, rfl, h.algorithm, h.signature, h.headerText, rfl⟩, rfl⟩

theorem prepared (algorithm : Algorithm) :
    (token.prepared algorithm).Agrees (bare.prepared algorithm) := by
  rw [Token.prepared, BareToken.prepared, h.header]
  exact ⟨rfl, h.claims, rfl, rfl, rfl, h.claimsText⟩

theorem withdrawn : token.withdrawn.Agrees bare.withdrawn := by
  rw [Token.withdrawn, BareToken.withdrawn, h.header]
  exact ⟨rfl, h.claims, h.algorithm, h.signature, rfl, h.claimsText⟩

theorem write (withSignature : Bool) :
    Logged.Matches Agrees (token.write withSignature)
      ((bare, ·) <$> bare.write withSignature) := by
  rw [Token.write, BareToken.write, h.headerText, h.claimsText, h.signature]
  exact ⟨h.settled, rfl, rfl⟩

theorem computeSignature (algorithm : Algorithm) (document : Json) :
    token.computeSignature algorithm document = bare.computeSignature algorithm document := by
  rewrite [Token.computeSignature, BareToken.computeSignature, h.signingInput]
  rfl

theorem hasValidSignature (document : Json) :
    Logged.Matches Agrees (token.hasValidSignature document)
      ((bare, ·) <$> bare.hasValidSignature document) := by
  rw [Token.hasValidSignature, BareToken.hasValidSignature, h.algorithm, h.signature,
    h.signingInput]
  split
  · exact ⟨h, rfl, rfl⟩
  · rw [map_bind]
    refine Logged.matches_bind_same _ fun found => ?_
    cases found with
    | error cause => exact ⟨h, rfl, rfl⟩
    | ok key => exact ⟨h.settled, rfl, rfl⟩

theorem sign (algorithm : Algorithm) (document : Json) :
    Logged.Matches Agrees (token.sign algorithm document) (bare.sign algorithm document) := by
  rw [Token.sign, BareToken.sign]
  split
  · exact ⟨h, rfl, rfl⟩
  · split
    · exact ⟨h, rfl, rfl⟩
    · have hready := (h.prepared algorithm).settled
      dsimp only
      rw [hready.computeSignature]
      refine Logged.matches_bind_same _ fun result => ?_
      cases result with
      | error failure =>
          cases failure with
          | error cause => exact ⟨hready.withdrawn, rfl, rfl⟩
          | crash => exact ⟨hready, rfl, rfl⟩
      | ok signature =>
          exact ⟨⟨hready.header, hready.claims, rfl, rfl, hready.headerText, hready.claimsText⟩,
            rfl, rfl⟩

end Agrees

end Token

/-! ### Whole scripts -/

namespace Script

/-- Both tokens of the one session agree with those of the other. -/
structure Session.Agrees (session : Session) (bare : BareSession) : Prop where
  current : session.current.Agrees bare.current
  saved : Option.Rel Token.Agrees session.saved bare.saved

namespace Session.Agrees

variable {session : Session} {bare : BareSession} (h : session.Agrees bare)
include h

theorem put {token : Token} {other : BareToken} (htoken : token.Agrees other) :
    (session.put token).Agrees (bare.put other) :=
  ⟨htoken, h.saved⟩

theorem view (name : String) : session.view name = bare.view name := by
  rw [Session.view, BareSession.view, Token.claimKind, Token.claimNumber?, Token.claimString?,
    Token.claim?, h.current.claims]
  cases bare.current.claims.find? name <;> rfl

theorem take (text : String) : Logged.Matches Agrees (session.take text) (bare.take text) := by
  rw [Session.take, BareSession.take, Token.read_eq_map, ExceptT.run_map, bind_map_left]
  refine Logged.matches_bind_same _ fun result => ?_
  cases result with
  | error cause => exact Logged.matches_pure h _
  | ok token => exact Logged.matches_pure (h.put (Token.agrees_ofBare token)) _

theorem write (withSignature : Bool) :
    Logged.Matches Agrees (session.write withSignature)
      ((bare, ·) <$> bare.current.write withSignature) := by
  have hwrite := h.current.write withSignature
  exact ⟨h.put hwrite.state, hwrite.result, (List.append_nil _).trans hwrite.events⟩

theorem restored :
    (session.saved.getD session.current).Agrees (bare.saved.getD bare.current) := by
  obtain ⟨current, saved⟩ := session
  obtain ⟨bareCurrent, bareSaved⟩ := bare
  obtain ⟨hcurrent, hsaved⟩ := h
  cases hsaved with
  | none => exact hcurrent
  | some hsaved => exact hsaved

/-- One step keeps sessions in agreement, and gives the same reply. -/
theorem step (command : Command) :
    Logged.Matches Agrees (session.step command) (bare.step command) := by
  cases command with
  | refused cause => exact Logged.matches_pure h _
  | new type => exact Logged.matches_pure (h.put (Token.agrees_new type)) _
  | read text => exact h.take text
  | roundTrip => exact (h.write true).bind_look fun next text hnext => hnext.take text
  | write withSignature =>
      exact (h.write withSignature).bind_look fun next text hnext => Logged.matches_pure hnext _
  | display => exact (h.write true).bind_look fun next text hnext => Logged.matches_pure hnext _
  | sign algorithm document =>
      refine (h.current.sign algorithm document).bind fun token other outcome htoken => ?_
      exact Logged.matches_pure (h.put htoken) _
  | checkSignature document =>
      refine (h.current.hasValidSignature document).bind_look fun token valid htoken => ?_
      exact Logged.matches_pure (h.put htoken) _
  | setNumber name value =>
      rw [Session.step, BareSession.step, Token.setNumber]
      cases JsonNumber.ofBinary64? value with
      | none => exact Logged.matches_pure h _
      | some number => exact Logged.matches_pure (h.put (h.current.setClaim name _)) _
  | setString name value => exact Logged.matches_pure (h.put (h.current.setClaim name _)) _
  | setClaim name value => exact Logged.matches_pure (h.put (h.current.setClaim name value)) _
  | remove name =>
      obtain ⟨htoken, hvalue⟩ := h.current.removeClaim name
      change Logged.Matches Agrees
        (pure (session.put (session.current.removeClaim name).1,
          (Except.ok (.removed (session.current.removeClaim name).2) : Outcome Reply)))
        (pure (bare.put (bare.current.removeClaim name).1,
          (Except.ok (.removed (bare.current.removeClaim name).2) : Outcome Reply)))
      rw [hvalue]
      exact Logged.matches_pure (h.put htoken) _
  | get name =>
      rw [Session.step, BareSession.step, h.view]
      exact Logged.matches_pure h _
  | save => exact Logged.matches_pure ⟨h.current, .some h.current⟩ _
  | restore => exact Logged.matches_pure (h.put h.restored) _

end Session.Agrees

/-- Sessions in agreement give the same answers to all scripts, and report the same events. -/
theorem Session.Agrees.answers {session : Session} {bare : BareSession} (h : session.Agrees bare)
    (commands : List Command) : session.answers commands = bare.answers commands := by
  induction commands generalizing session bare with
  | nil => rfl
  | cons command commands ih =>
      rw [Session.answers, Session.run, BareSession.answers, bind_assoc]
      refine (h.step command).bind_eq fun next other outcome hnext => ?_
      have hlater : ((do
            let rest ← next.run commands
            return (outcome, next) :: rest) >>= fun states =>
              return states.map fun answer => (answer.1, answer.2.current.visible)) =
          (do
            let rest ← other.answers commands
            return (outcome, other.current.visible) :: rest : Logged _) := by
        rw [← ih hnext, ← hnext.current.visible, Session.answers, bind_assoc, bind_assoc]
        rfl
      cases outcome with
      | ok reply => exact hlater
      | error failure =>
          cases failure with
          | error cause => exact hlater
          | crash => exact congrArg (fun visible => pure [(_, visible)]) hnext.current.visible

/-! ### Commands that only look -/

/-- A command that only looks at the current token. -/
inductive Look where
  | write (withSignature : Bool)
  | display
  | checkSignature (document : Json)
  | get (name : String)

def Look.command : Look → Command
  | .write withSignature => .write withSignature
  | .display => .display
  | .checkSignature document => .checkSignature document
  | .get name => .get name

/-- A script with looks put anywhere into it. -/
abbrev LookScript := List (Command ⊕ Look)

namespace LookScript

def commands (script : LookScript) : List Command :=
  script.map (Sum.elim id Look.command)

/-- The script without the looks. -/
def others (script : LookScript) : List Command :=
  script.filterMap Sum.getLeft?

/-- The answers to a script without those to the looks. -/
def kept {α : Type} (script : LookScript) (answers : List α) : List α :=
  (script.zip answers).filterMap fun (entry, answer) => entry.getLeft?.map fun _ => answer

section

variable {α : Type} (script : LookScript)

theorem kept_nil : script.kept ([] : List α) = [] := by
  rw [kept, List.zip_nil_right, List.filterMap_nil]

theorem kept_command (command : Command) (answer : α) (answers : List α) :
    kept (.inl command :: script) (answer :: answers) = answer :: script.kept answers := rfl

theorem kept_look (look : Look) (answer : α) (answers : List α) :
    kept (.inr look :: script) (answer :: answers) = script.kept answers := rfl

end

end LookScript

theorem BareSession.step_look (session : BareSession) (look : Look) :
    ∃ reply, (session.step look.command).value = (session, .ok reply) := by
  cases look with
  | write withSignature => exact ⟨_, rfl⟩
  | display => exact ⟨_, rfl⟩
  | checkSignature document => exact ⟨_, rfl⟩
  | get name => exact ⟨_, rfl⟩

/-- Looks change no answer to the other commands. -/
theorem BareSession.kept_answers (session : BareSession) (script : LookScript) :
    script.kept (session.answers script.commands).value = (session.answers script.others).value := by
  induction script generalizing session with
  | nil => rfl
  | cons entry script ih =>
      cases entry with
      | inl command =>
          change LookScript.kept (.inl command :: script)
            (session.answers (command :: LookScript.commands script)).value =
            (session.answers (command :: LookScript.others script)).value
          rw [answers, answers, Logged.value_bind, Logged.value_bind]
          dsimp only
          split
          · -- The command broke off, in both scripts.
            rw [Logged.value_pure, LookScript.kept_command, LookScript.kept_nil]
          · exact (LookScript.kept_command script command _ _).trans (congrArg (_ :: ·) (ih _))
      | inr look =>
          obtain ⟨reply, hstep⟩ := session.step_look look
          change LookScript.kept (.inr look :: script)
            (session.answers (look.command :: LookScript.commands script)).value =
            (session.answers (LookScript.others script)).value
          rw [answers, Logged.value_bind, hstep]
          exact (LookScript.kept_look script look _ _).trans (ih session)

/-- The texts that a token fills in cannot be seen: a script gets the answers, and reports the events,
that it would if every text were printed anew as long as the token was not read with it. So commands
that only look at a token change no answer to any other command, wherever they are put. -/
theorem Session.answers_eq_bare :
    (∀ commands, Session.start.answers commands = BareSession.start.answers commands) ∧
    ∀ script : LookScript,
      script.kept (Session.start.answers script.commands).value =
        (Session.start.answers script.others).value := by
  have hstart : Session.start.Agrees BareSession.start := ⟨Token.agrees_new none, .none⟩
  refine ⟨hstart.answers, fun script => ?_⟩
  rw [hstart.answers, hstart.answers]
  exact BareSession.start.kept_answers script

end Script

end WebToken
