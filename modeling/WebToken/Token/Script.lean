import WebToken.Token.Claims

/-! Scripts of operations on a token, with a second token that can be kept aside. -/

namespace WebToken.Script

/-- An operation; one that could not be read does nothing and fails with its cause. -/
inductive Command where
  | refused (cause : Error)
  | new (type : Option String)
  | read (text : String)
  | roundTrip
  | write (withSignature : Bool)
  | display
  | sign (algorithm : Algorithm) (document : Json)
  | checkSignature (document : Json)
  | setNumber (name : String) (value : Binary64)
  | setString (name value : String)
  | setClaim (name : String) (value : Json)
  | remove (name : String)
  | get (name : String)
  | save
  | restore

/-- A claim as its readers see it. -/
structure ClaimView where
  kind : Json.Kind
  number : Option Binary64
  string : Option String
  value : Option Json

inductive Reply where
  | done
  | text (text : String)
  | valid (valid : Bool)
  | removed (value : Option Json)
  | claim (view : ClaimView)

structure Session where
  current : Token
  saved : Option Token

namespace Session

/-- A session starts with a new token. -/
def start : Session := ⟨.new none, none⟩

def put (session : Session) (token : Token) : Session :=
  { session with current := token }

/-- Takes in a token that was read, or keeps the current one. -/
def take (session : Session) (text : String) : Logged (Session × Outcome Reply) := do
  match ← (Token.read text).run with
  | .ok token => return (session.put token, .ok .done)
  | .error cause => return (session, .error (.error cause))

def write (session : Session) (withSignature : Bool) : Logged (Session × String) := do
  let (token, text) ← session.current.write withSignature
  return (session.put token, text)

/-- What the readers of a claim tell. -/
def view (session : Session) (name : String) : ClaimView :=
  ⟨session.current.claimKind name, session.current.claimNumber? name,
    session.current.claimString? name, session.current.claim? name⟩

/-- Carries out one command. -/
def step (session : Session) : Command → Logged (Session × Outcome Reply)
  | .refused cause => return (session, .error (.error cause))
  | .new type => return (session.put (.new type), .ok .done)
  | .read text => session.take text
  | .roundTrip => do
      let (session, text) ← session.write true
      session.take text
  | .write withSignature => do
      let (session, text) ← session.write withSignature
      return (session, .ok (.text text))
  | .display => do
      let (session, text) ← session.write true
      return (session, .ok (.text text))
  | .sign algorithm document => do
      let (token, outcome) ← session.current.sign algorithm document
      return (session.put token, outcome.map fun _ => .done)
  | .checkSignature document => do
      let (token, valid) ← session.current.hasValidSignature document
      return (session.put token, .ok (.valid valid))
  | .setNumber name value =>
      match session.current.setNumber name value with
      | .ok token => return (session.put token, .ok .done)
      | .error cause => return (session, .error (.error cause))
  | .setString name value => return (session.put (session.current.setString name value), .ok .done)
  | .setClaim name value => return (session.put (session.current.setClaim name value), .ok .done)
  | .remove name =>
      let (token, value) := session.current.removeClaim name
      return (session.put token, .ok (.removed value))
  | .get name => return (session, .ok (.claim (session.view name)))
  | .save => return ({ session with saved := some session.current }, .ok .done)
  | .restore => return (session.put (session.saved.getD session.current), .ok .done)

/-- Carries out commands in order. Each comes with its outcome and the session after it; what
breaks off is the last. -/
def run (session : Session) : List Command → Logged (List (Outcome Reply × Session))
  | [] => return []
  | command :: commands => do
      let (session, outcome) ← session.step command
      match outcome with
      | .error .crash => return [(outcome, session)]
      | _ =>
          let rest ← session.run commands
          return (outcome, session) :: rest

end Session

end WebToken.Script
