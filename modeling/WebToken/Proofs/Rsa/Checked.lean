import WebToken.Proofs.Rsa

/-! Building private keys with every subtraction and every division checked. Building breaks off where
there is no difference or no quotient, and nowhere else: that can happen while the factors are found
from the exponents, but not with factors that were supplied. -/

namespace WebToken.Rsa

/-- A computation that can be refused, and that breaks off where a number has no value. -/
abbrev Checked (α : Type) := ExceptT Fault Option α

/-- The difference, if it is not below zero. -/
def difference? (left right : Nat) : Option Nat :=
  if right ≤ left then some (left - right) else none

/-- The quotient, if the divisor is not zero. -/
def quotient? (value divisor : Nat) : Option Nat :=
  if divisor = 0 then none else some (value / divisor)

/-- The remainder, if the divisor is not zero. -/
def remainder? (value divisor : Nat) : Option Nat :=
  if divisor = 0 then none else some (value % divisor)

theorem difference?_of_le {left right : Nat} (h : right ≤ left) :
    difference? left right = some (left - right) := if_pos h

theorem difference?_of_lt {left right : Nat} (h : left < right) : difference? left right = none :=
  if_neg (Nat.not_le_of_lt h)

theorem quotient?_of_pos {value divisor : Nat} (h : 0 < divisor) :
    quotient? value divisor = some (value / divisor) := if_neg (Nat.ne_of_gt h)

theorem remainder?_of_pos {value divisor : Nat} (h : 0 < divisor) :
    remainder? value divisor = some (value % divisor) := if_neg (Nat.ne_of_gt h)

section

variable {α β : Type}

@[simp]
theorem lift_some_bind (value : α) (next : α → Checked β) :
    ((liftM (some value) : Checked α) >>= next) = next value := rfl

@[simp]
theorem lift_none_bind (next : α → Checked β) :
    ((liftM (none : Option α) : Checked α) >>= next) = ExceptT.mk none := rfl

@[simp]
theorem lift_ok_bind (value : α) (next : α → Checked β) :
    ((liftM (.ok value : Except Fault α) : Checked α) >>= next) = next value := rfl

end

/-! ### Finding the factors -/

/-- The search for the factors, checked. -/
def recover? (modulus exponent privateExponent : Nat) : Checked (Nat × Nat) :=
  if exponent ≤ 1 <<< 16 ∨ 1 <<< 256 ≤ exponent then throw .invalidArguments
  else do
    let before ← difference? modulus 1
    let order ← difference? (privateExponent * exponent) 1
    let multiple := order * Nat.gcd before order
    let quotient ← quotient? multiple modulus
    let rest ← remainder? multiple modulus
    let gap ← difference? modulus rest
    if (← remainder? gap (quotient + 1)) ≠ 0 then throw .invalidArguments
    let sum := (← quotient? gap (quotient + 1)) + 1
    if sum * sum ≤ 4 * modulus then throw .invalidArguments
    let square ← difference? (sum * sum) (4 * modulus)
    let root := Modular.sqrt square
    if root * root ≠ square then throw .invalidArguments
    let twice ← difference? sum root
    return ((sum + root) / 2, twice / 2)

/-- What a search found or why it found nothing, unless it broke off. -/
def Recovery.checked : Recovery → Checked (Nat × Nat)
  | found p q => pure (p, q)
  | refused fault => throw fault
  | belowZero => ExceptT.mk none

theorem recover_of_exponent {modulus exponent privateExponent : Nat}
    (h : exponent ≤ 1 <<< 16 ∨ 1 <<< 256 ≤ exponent) :
    recover modulus exponent privateExponent = .refused .invalidArguments := if_pos h

theorem recover_of_zero {modulus exponent privateExponent : Nat}
    (hexponent : ¬(exponent ≤ 1 <<< 16 ∨ 1 <<< 256 ≤ exponent))
    (hzero : modulus = 0 ∨ privateExponent = 0) :
    recover modulus exponent privateExponent = .belowZero := by
  rw [recover, if_neg hexponent, if_pos hzero]

theorem recover?_of_zero {modulus exponent privateExponent : Nat}
    (hexponent : ¬(exponent ≤ 1 <<< 16 ∨ 1 <<< 256 ≤ exponent))
    (hzero : modulus = 0 ∨ privateExponent = 0) :
    recover? modulus exponent privateExponent = ExceptT.mk none := by
  rw [recover?, if_neg hexponent]
  rcases hzero with rfl | rfl
  · rw [difference?_of_lt Nat.zero_lt_one, lift_none_bind]
  · rw [Nat.zero_mul, difference?_of_lt Nat.zero_lt_one]
    cases difference? modulus 1 <;> rfl

/-- A number whose square is what is left of another square is not above the other. -/
theorem le_of_mul_self_eq_sub {root sum product : Nat} (h : root * root = sum * sum - product) :
    root ≤ sum := by
  rw [← Nat.mul_self_le_mul_self_iff, h]
  exact Nat.sub_le _ _

/-- With positive numbers no intermediate result falls below zero: a remainder is below its divisor,
and the difference of the factors at most their sum. -/
theorem checked_recover_of_pos {modulus exponent privateExponent : Nat} (hmodulus : 0 < modulus)
    (hpos : 0 < privateExponent) :
    (recover modulus exponent privateExponent).checked =
      recover? modulus exponent privateExponent := by
  rw [recover, recover?]
  by_cases hexponent : exponent ≤ 1 <<< 16 ∨ 1 <<< 256 ≤ exponent
  · rw [if_pos hexponent, if_pos hexponent]
    rfl
  have hproduct : 0 < privateExponent * exponent := by
    apply Nat.mul_pos hpos
    omega
  rw [if_neg hexponent, if_neg hexponent, if_neg (by omega), difference?_of_le hmodulus,
    difference?_of_le hproduct]
  simp only [lift_some_bind, quotient?_of_pos hmodulus, remainder?_of_pos hmodulus]
  generalize (privateExponent * exponent - 1) *
    Nat.gcd (modulus - 1) (privateExponent * exponent - 1) = multiple
  have hrest : multiple % modulus ≤ modulus := Nat.le_of_lt (Nat.mod_lt _ hmodulus)
  have hdivisor : 0 < multiple / modulus + 1 := Nat.succ_pos _
  simp only [difference?_of_le hrest, quotient?_of_pos hdivisor, remainder?_of_pos hdivisor,
    lift_some_bind]
  by_cases hdivides : (modulus - multiple % modulus) % (multiple / modulus + 1) ≠ 0
  · rw [if_pos hdivides, if_pos hdivides]
    rfl
  rw [if_neg hdivides, if_neg hdivides]
  generalize (modulus - multiple % modulus) / (multiple / modulus + 1) + 1 = sum
  by_cases hsmall : sum * sum ≤ 4 * modulus
  · rw [if_pos hsmall, if_pos hsmall]
    rfl
  rw [if_neg hsmall, if_neg hsmall, difference?_of_le (Nat.le_of_not_le hsmall)]
  simp only [lift_some_bind]
  generalize hsquare : sum * sum - 4 * modulus = square
  by_cases hroot : Modular.sqrt square * Modular.sqrt square ≠ square
  · rw [if_pos hroot, if_pos hroot]
    rfl
  · have hle := le_of_mul_self_eq_sub ((Decidable.not_not.mp hroot).trans hsquare.symm)
    rw [if_neg hroot, if_neg hroot, difference?_of_le hle]
    rfl

/-- The search for the factors breaks off exactly where a checked one does. -/
theorem checked_recover (modulus exponent privateExponent : Nat) :
    (recover modulus exponent privateExponent).checked =
      recover? modulus exponent privateExponent := by
  by_cases hzero : modulus = 0 ∨ privateExponent = 0
  · by_cases hexponent : exponent ≤ 1 <<< 16 ∨ 1 <<< 256 ≤ exponent
    · rw [recover_of_exponent hexponent, recover?, if_pos hexponent]
      rfl
    · rw [recover_of_zero hexponent hzero, recover?_of_zero hexponent hzero]
      rfl
  · apply checked_recover_of_pos <;> omega

/-! ### Building the key -/

/-- Whether the factors fit, checked. -/
def checkFactors? (key : PublicKey) (privateExponent p q : Nat) : Checked Unit := do
  let product := privateExponent * key.exponent
  if p ≤ 1 ∨ q ≤ 1 then throw .invalidPrime
  if p * q ≠ key.modulus then throw .invalidModulus
  let restP ← remainder? product (← difference? p 1)
  let restQ ← remainder? product (← difference? q 1)
  if restP ≠ 1 ∨ restQ ≠ 1 then throw .invalidExponent

/-- Whether supplied values fit the factors, checked. -/
def checkCrt? (factors : Factors) (crt : Nat × Nat × Nat) : Checked Unit := do
  let (exponentP, exponentQ, coefficient) := crt
  if exponentP ≠ factors.exponentP ∨ exponentQ ≠ factors.exponentQ then throw .crtExponents
  let rest ← remainder? (coefficient * factors.q) factors.p
  if factors.p ≤ coefficient ∨ rest ≠ 1 then throw .crtCoefficient

/-- The private key with two factors, checked. -/
def PrivateKey.ofFactors? (components : Components) (p q : Nat)
    (crt : Option (Nat × Nat × Nat)) : Checked PrivateKey := do
  let key : PublicKey := ⟨components.modulus, components.exponent⟩
  key.check
  checkFactors? key components.privateExponent p q
  if modulusLimit < 8 * key.size then throw (.modulusBeyondLimit (8 * key.size))
  else
    let rest ← remainder? q p
    match Modular.inverse? rest p with
    | none => throw .invalidPrime
    | some coefficient => do
        let exponentP ← remainder? components.privateExponent (← difference? p 1)
        let exponentQ ← remainder? components.privateExponent (← difference? q 1)
        let factors : Factors := ⟨p, q, exponentP, exponentQ, coefficient⟩
        match crt with
        | none => pure ()
        | some crt => checkCrt? factors crt
        return ⟨key, components.privateExponent, factors⟩

/-- The private key that components make, checked. -/
def PrivateKey.build? (components : Components) : Checked PrivateKey :=
  match components.primes with
  | some (p, q) => ofFactors? components p q components.crt
  | none => do
      let (p, q) ← recover? components.modulus components.exponent components.privateExponent
      ofFactors? components p q none

/-- What was built or why nothing was, unless building broke off. -/
def Building.checked : Building → Checked PrivateKey
  | built key => pure key
  | refused fault => throw fault
  | belowZero => ExceptT.mk none

theorem checkFactors?_eq_lift (key : PublicKey) (privateExponent p q : Nat) :
    checkFactors? key privateExponent p q = liftM (checkFactors key privateExponent p q) := by
  rw [checkFactors, checkFactors?]
  by_cases hprimes : p ≤ 1 ∨ q ≤ 1
  · rw [if_pos hprimes, if_pos hprimes]
    rfl
  by_cases hproduct : p * q ≠ key.modulus
  · rw [if_neg hprimes, if_neg hprimes, if_pos hproduct, if_pos hproduct]
    rfl
  have hp : 0 < p - 1 := by omega
  have hq : 0 < q - 1 := by omega
  rw [if_neg hprimes, if_neg hprimes, if_neg hproduct, if_neg hproduct,
    difference?_of_le (by omega), difference?_of_le (by omega)]
  simp only [lift_some_bind, remainder?_of_pos hp, remainder?_of_pos hq]
  split <;> rfl

theorem checkCrt?_eq_lift {factors : Factors} (hp : 0 < factors.p) (crt : Nat × Nat × Nat) :
    checkCrt? factors crt = liftM (checkCrt factors crt) := by
  obtain ⟨exponentP, exponentQ, coefficient⟩ := crt
  rw [checkCrt?, checkCrt, remainder?_of_pos hp]
  simp only [lift_some_bind]
  split
  · rfl
  · split <;> rfl

/-- With factors that were supplied no number lacks a value, whatever the factors are. -/
theorem PrivateKey.ofFactors?_eq_lift (components : Components) (p q : Nat)
    (crt : Option (Nat × Nat × Nat)) :
    ofFactors? components p q crt = liftM (ofFactors components p q crt) := by
  rw [ofFactors, ofFactors?, checkFactors?_eq_lift]
  cases PublicKey.check ⟨components.modulus, components.exponent⟩ with
  | error fault => rfl
  | ok _ =>
      cases hfactors : checkFactors ⟨components.modulus, components.exponent⟩
          components.privateExponent p q with
      | error fault => rfl
      | ok _ =>
          -- Factors that passed the check are above one, so that no divisor is zero.
          obtain ⟨hp, hq, _⟩ := (checkFactors_eq_ok_iff _ _ _ _).mp hfactors
          have hinverse : Modular.inverse? (q % p) p = Modular.inverse? q p := by
            rw [Modular.inverse?, Modular.inverse?, Nat.mod_mod]
          simp only [lift_ok_bind]
          split
          · rfl
          simp only [remainder?_of_pos (Nat.lt_of_succ_lt hp), lift_some_bind, hinverse]
          cases Modular.inverse? q p with
          | none => rfl
          | some coefficient =>
              simp only [difference?_of_le (Nat.le_of_lt hp), difference?_of_le (Nat.le_of_lt hq),
                remainder?_of_pos (Nat.sub_pos_of_lt hp), remainder?_of_pos (Nat.sub_pos_of_lt hq),
                lift_some_bind]
              cases crt with
              | none => rfl
              | some crt =>
                  have hpos : 0 < Factors.p ⟨p, q, components.privateExponent % (p - 1),
                      components.privateExponent % (q - 1), coefficient⟩ := Nat.lt_of_succ_lt hp
                  simp only [checkCrt?_eq_lift hpos]
                  cases checkCrt _ crt with
                  | error fault => rfl
                  | ok _ => rfl

theorem checked_ofExcept (result : Except Fault PrivateKey) :
    (Building.ofExcept result).checked = liftM result := by
  cases result with
  | error fault => rfl
  | ok key => rfl

/-- Building a key breaks off exactly where a checked one does, and they agree otherwise. -/
theorem checked_build (components : Components) :
    (PrivateKey.build components).checked = PrivateKey.build? components := by
  rw [PrivateKey.build, PrivateKey.build?]
  cases components.primes with
  | some primes =>
      obtain ⟨p, q⟩ := primes
      dsimp only
      rw [checked_ofExcept, PrivateKey.ofFactors?_eq_lift]
  | none =>
      simp only [← checked_recover]
      cases recover components.modulus components.exponent components.privateExponent with
      | found p q =>
          rw [checked_ofExcept, ← PrivateKey.ofFactors?_eq_lift]
          rfl
      | refused fault => rfl
      | belowZero => rfl

end WebToken.Rsa
