import WebToken.Event

/-! Operations that report events, and the ways in which they end. -/

namespace WebToken

/-- A value with the events reported on the way to it, in order. -/
structure Logged (α : Type) where
  value : α
  events : List Event
deriving DecidableEq, Repr

namespace Logged

instance : Monad Logged where
  pure value := ⟨value, []⟩
  bind first next :=
    let second := next first.value
    ⟨second.value, first.events ++ second.events⟩

def report (event : Event) : Logged Unit := ⟨(), [event]⟩

@[simp]
theorem value_pure {α : Type} (value : α) : (pure value : Logged α).value = value := rfl

@[simp]
theorem events_pure {α : Type} (value : α) : (pure value : Logged α).events = [] := rfl

@[simp]
theorem value_bind {α β : Type} (first : Logged α) (next : α → Logged β) :
    (first >>= next).value = (next first.value).value := rfl

@[simp]
theorem events_bind {α β : Type} (first : Logged α) (next : α → Logged β) :
    (first >>= next).events = first.events ++ (next first.value).events := rfl

theorem ext_parts {α : Type} {left right : Logged α} (values : left.value = right.value)
    (events : left.events = right.events) : left = right := by
  cases left
  cases right
  simp_all

instance : LawfulMonad Logged := LawfulMonad.mk' Logged
  (fun first => ext_parts rfl (List.append_nil _))
  (fun value next => ext_parts rfl (List.nil_append _))
  (fun first next last => ext_parts rfl (List.append_assoc _ _ _))

end Logged

/-- An operation that reports events and can be refused. -/
abbrev Attempt (α : Type) := ExceptT Error Logged α

namespace Attempt

def report (event : Event) : Attempt Unit :=
  ExceptT.lift (Logged.report event)

end Attempt

/-- How an operation can end without a value: refused, or broken off because an intermediate number
would fall below zero. -/
inductive Failure where
  | error (cause : Error)
  | crash
deriving DecidableEq, Repr

abbrev Outcome (α : Type) := Except Failure α

/-- The outcome of what cannot break off. -/
def Outcome.ofExcept {α : Type} : Except Error α → Outcome α
  | .ok value => .ok value
  | .error cause => .error (.error cause)

/-- An operation that reports events, can be refused and can break off. -/
abbrev Action (α : Type) := ExceptT Failure Logged α

namespace Action

def ofAttempt {α : Type} (attempt : Attempt α) : Action α :=
  ExceptT.mk (do return Outcome.ofExcept (← attempt.run))

instance : MonadLift (ExceptT Error Logged) (ExceptT Failure Logged) where
  monadLift := ofAttempt

end Action

end WebToken
