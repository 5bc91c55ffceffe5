import WebToken.Action

/-! What the value of an operation is made of, and what it can be refused for. Events never influence
it. -/

namespace WebToken

theorem bind_eq_ok_iff {ε α β : Type} {first : Except ε α} {next : α → Except ε β} {result : β} :
    first >>= next = .ok result ↔ ∃ value, first = .ok value ∧ next value = .ok result := by
  cases first with
  | error cause =>
      refine ⟨fun h => ?_, fun ⟨value, h, _⟩ => ?_⟩ <;> cases h
  | ok value =>
      refine ⟨fun h => ⟨value, rfl, h⟩, fun ⟨other, hother, h⟩ => ?_⟩
      cases hother
      exact h

@[simp]
theorem value_map {α β : Type} (next : α → β) (logged : Logged α) :
    (next <$> logged).value = next logged.value := rfl

section

variable {ε α β : Type}

@[simp]
theorem value_run_pure (value : α) : (pure value : ExceptT ε Logged α).run.value = .ok value := rfl

@[simp]
theorem value_run_lift (result : Except ε α) :
    (liftM result : ExceptT ε Logged α).run.value = result := rfl

@[simp]
theorem value_run_bind (first : ExceptT ε Logged α) (next : α → ExceptT ε Logged β) :
    (first >>= next).run.value = first.run.value >>= fun value => (next value).run.value := by
  rw [ExceptT.run_bind, Logged.value_bind]
  cases first.run.value with
  | ok value => rfl
  | error cause => rfl

end

@[simp]
theorem value_run_report (event : Event) : (Attempt.report event).run.value = .ok () := rfl

@[simp]
theorem value_run_attempt {α : Type} (attempt : Attempt α) :
    (liftM attempt : Action α).run.value = Outcome.ofExcept attempt.run.value := rfl

@[simp]
theorem ofExcept_eq_ok_iff {α : Type} (result : Except Error α) (value : α) :
    Outcome.ofExcept result = .ok value ↔ result = .ok value := by
  cases result with
  | error cause => simp only [Outcome.ofExcept, reduceCtorEq]
  | ok found => simp only [Outcome.ofExcept, Except.ok.injEq]

/-! ### Values with their events -/

section

variable {α β ε : Type} {events more : List Event}

theorem run_bind_ok {first : ExceptT ε Logged α} {value : α} (hfirst : first.run = ⟨.ok value, events⟩)
    {next : α → ExceptT ε Logged β} {result : Except ε β} (hnext : (next value).run = ⟨result, more⟩) :
    (first >>= next).run = ⟨result, events ++ more⟩ := by
  rw [ExceptT.run_bind, hfirst]
  change Logged.mk (next value).run.value (events ++ (next value).run.events) = _
  rw [hnext]

theorem run_bind_error {first : ExceptT ε Logged α} {cause : ε}
    (hfirst : first.run = ⟨.error cause, events⟩) {next : α → ExceptT ε Logged β} :
    (first >>= next).run = ⟨.error cause, events⟩ := by
  rw [ExceptT.run_bind, hfirst]
  change Logged.mk (Except.error cause) (events ++ []) = _
  rw [List.append_nil]

theorem isOk_ofExcept (result : Except Error α) : (Outcome.ofExcept result).isOk = result.isOk := by
  cases result <;> rfl

theorem run_liftM {attempt : Attempt α} {result : Except Error α}
    (h : attempt.run = ⟨result, events⟩) :
    (liftM attempt : Action α).run = ⟨Outcome.ofExcept result, events⟩ := by
  change Logged.mk (Outcome.ofExcept attempt.run.value) (attempt.run.events ++ []) = _
  rw [h, List.append_nil]

end

/-! ### Refusals -/

/-- Whatever a result is refused for satisfies a condition. -/
def Refuses {ε α : Type} (Cause : ε → Prop) (result : Except ε α) : Prop :=
  ∀ cause, result = .error cause → Cause cause

/-- What is only refused, and never breaks off, satisfies a condition. -/
def Failure.Only (Cause : Error → Prop) : Failure → Prop
  | .error cause => Cause cause
  | .crash => True

namespace Refuses

variable {ε α β : Type} {Cause : ε → Prop}

theorem ok (value : α) : Refuses Cause (.ok value) := by
  intro cause h
  cases h

theorem error {cause : ε} (h : Cause cause) : Refuses Cause (.error cause : Except ε α) := by
  intro other hother
  cases hother
  exact h

theorem bind {first : Except ε α} {next : α → Except ε β} (hfirst : Refuses Cause first)
    (hnext : ∀ value, first = .ok value → Refuses Cause (next value)) :
    Refuses Cause (first >>= next) := by
  cases first with
  | ok value => exact hnext value rfl
  | error cause => exact error (hfirst cause rfl)

theorem weaken {Other : ε → Prop} {result : Except ε α} (h : Refuses Cause result)
    (hcause : ∀ cause, Cause cause → Other cause) : Refuses Other result := by
  intro cause hresult
  exact hcause cause (h cause hresult)

theorem mono {Cause Other : Error → Prop} {result : Outcome α}
    (h : Refuses (Failure.Only Cause) result) (hcause : ∀ cause, Cause cause → Other cause) :
    Refuses (Failure.Only Other) result := by
  intro failure hfailure
  have honly := h failure hfailure
  cases failure with
  | error cause => exact hcause cause honly
  | crash => trivial

theorem ofExcept {Cause : Error → Prop} {result : Except Error α} (h : Refuses Cause result) :
    Refuses (Failure.Only Cause) (Outcome.ofExcept result) := by
  cases result with
  | ok value => exact ok value
  | error cause => exact error (h cause rfl)

end Refuses

end WebToken
