import WebToken.Proofs.Jwk.Consumed

/-! Optional members of RSA documents that count only together. If some of them are missing the others
are ignored, yet they are read before that is known: one that cannot be read is the document's fault,
although it would not be used. -/

namespace WebToken

namespace Members

/-- The members whose names are not listed. -/
def without (members : Members) (names : List String) : Members :=
  names.foldl erase members

theorem find?_without (members : Members) (names : List String) (name : String) :
    (members.without names).find? name = if name ∈ names then none else members.find? name := by
  induction names generalizing members with
  | nil => simp [without]
  | cons first names ih =>
      change ((members.erase first).without names).find? name = _
      rw [ih, find?_erase]
      by_cases hname : name = first <;> simp [hname]

end Members

namespace Jwk

/-- The first fault of members that are read in order. -/
def firstFault? {α : Type} (read : String → Except Error α) (names : List String) : Option Error :=
  names.findSome? fun name =>
    match read name with
    | .ok _ => none
    | .error cause => some cause

/-- The first fault among the members that an RSA key needs, and then among further ones. -/
def faultBefore? (jwk : Jwk) (further : List String) : Option Error :=
  (firstFault? jwk.octets ["n", "e", "d"]).or (firstFault? jwk.octets? further)

section

variable {α : Type} {read : String → Except Error α} {names : List String}

theorem firstFault?_cons (name : String) :
    firstFault? read (name :: names) =
      match read name with
      | .ok _ => firstFault? read names
      | .error cause => some cause := by
  rw [firstFault?, List.findSome?_cons]
  cases read name <;> rfl

theorem firstFault?_append (more : List String) :
    firstFault? read (names ++ more) = (firstFault? read names).or (firstFault? read more) :=
  List.findSome?_append

theorem firstFault?_eq_none_iff :
    firstFault? read names = none ↔ ∀ name ∈ names, ∃ value, read name = .ok value := by
  rw [firstFault?, List.findSome?_eq_none_iff]
  refine forall₂_congr fun name _ => ?_
  cases read name <;> simp

theorem firstFault?_congr {other : String → Except Error α}
    (h : ∀ name ∈ names, read name = other name) :
    firstFault? read names = firstFault? other names := by
  induction names with
  | nil => rfl
  | cons name names ih =>
      obtain ⟨hname, hnames⟩ := List.forall_mem_cons.mp h
      rw [firstFault?_cons, firstFault?_cons, hname, ih hnames]

end

/-- What starts with reads that do not all succeed ends with the first fault. -/
theorem bind_of_firstFault {α β : Type} {read : String → Except Error α} {name : String}
    {names : List String} {cause : Error} (h : firstFault? read (name :: names) = some cause)
    {next : α → Except Error β}
    (hnext : ∀ value, firstFault? read names = some cause → next value = .error cause) :
    read name >>= next = .error cause := by
  rw [firstFault?_cons] at h
  cases hread : read name with
  | ok value =>
      rw [hread] at h
      exact hnext value h
  | error first =>
      rw [hread] at h
      cases h
      rfl

/-! ### What the readers of an RSA key find -/

section

variable (jwk : Jwk)

theorem value_primes : jwk.primes.run.value = (do
    let p ← jwk.octets? "p"
    let q ← jwk.octets? "q"
    return p.bind fun p => q.map fun q => (Octets.toNat p, Octets.toNat q)) := by
  simp only [primes, value_run_bind, value_run_lift]
  congr 1
  funext p
  congr 1
  funext q
  cases p <;> cases q <;> rfl

theorem value_crt : jwk.crt.run.value = (do
    let exponentP ← jwk.octets? "dp"
    let exponentQ ← jwk.octets? "dq"
    let coefficient ← jwk.octets? "qi"
    return exponentP.bind fun exponentP => exponentQ.bind fun exponentQ =>
      coefficient.map fun coefficient =>
        (Octets.toNat exponentP, Octets.toNat exponentQ, Octets.toNat coefficient)) := by
  simp only [crt, value_run_bind, value_run_lift]
  congr 1
  funext exponentP
  congr 1
  funext exponentQ
  congr 1
  funext coefficient
  cases exponentP <;> cases exponentQ <;> cases coefficient <;> rfl

/-- What the optional members supply: the factors, and the values for evaluation modulo them. -/
def supplied : Except Error (Option (Nat × Nat) × Option (Nat × Nat × Nat)) := do
  let primes ← jwk.primes.run.value
  let crt ← jwk.crt.run.value
  return (primes, if primes.isSome then crt else none)

theorem value_rsaComponents : jwk.rsaComponents.run.value = (do
    let modulus ← jwk.octets "n"
    let exponent ← jwk.octets "e"
    let privateExponent ← jwk.octets "d"
    (fun found => ⟨Octets.toNat modulus, Octets.toNat exponent, Octets.toNat privateExponent, found.1,
      found.2⟩) <$> jwk.supplied) := by
  simp only [rsaComponents, value_run_bind, value_run_lift, supplied, map_bind]
  congr 1
  funext modulus
  congr 1
  funext exponent
  congr 1
  funext privateExponent
  congr 1
  funext primes
  congr 1
  funext crt
  by_cases halone : crt.isSome = true ∧ primes.isNone = true
  · rw [if_pos halone]
    rfl
  · rw [if_neg halone]
    rfl

variable {jwk} {cause : Error}

theorem octets?_of_missing {name : String} (h : jwk.members.find? name = none) :
    jwk.octets? name = .ok none := by
  rw [octets?, h]

theorem primes_of_fault (h : firstFault? jwk.octets? ["p", "q"] = some cause) :
    jwk.primes.run.value = .error cause := by
  rw [value_primes]
  refine bind_of_firstFault h fun p hq => ?_
  exact bind_of_firstFault hq fun q hnone => by cases hnone

theorem primes_of_readable (h : firstFault? jwk.octets? ["p", "q"] = none) :
    ∃ primes, jwk.primes.run.value = .ok primes ∧
      ((∃ name ∈ ["p", "q"], jwk.members.find? name = none) → primes = none) := by
  obtain ⟨⟨p, hp⟩, ⟨q, hq⟩, _⟩ := by
    simpa only [List.forall_mem_cons] using firstFault?_eq_none_iff.mp h
  rw [value_primes, hp, hq]
  refine ⟨_, rfl, ?_⟩
  rintro ⟨name, hname, hmissing⟩
  have hnone := octets?_of_missing hmissing
  simp only [List.mem_cons, List.not_mem_nil, or_false] at hname
  obtain rfl | rfl := hname
  · cases hp.symm.trans hnone
    rfl
  · cases hq.symm.trans hnone
    cases p <;> rfl

theorem crt_of_fault (h : firstFault? jwk.octets? ["dp", "dq", "qi"] = some cause) :
    jwk.crt.run.value = .error cause := by
  rw [value_crt]
  refine bind_of_firstFault h fun exponentP hrest => ?_
  refine bind_of_firstFault hrest fun exponentQ hlast => ?_
  exact bind_of_firstFault hlast fun coefficient hnone => by cases hnone

theorem crt_of_readable (h : firstFault? jwk.octets? ["dp", "dq", "qi"] = none) :
    ∃ crt, jwk.crt.run.value = .ok crt ∧
      ((∃ name ∈ ["dp", "dq", "qi"], jwk.members.find? name = none) → crt = none) := by
  obtain ⟨⟨exponentP, hdp⟩, ⟨exponentQ, hdq⟩, ⟨coefficient, hqi⟩, _⟩ := by
    simpa only [List.forall_mem_cons] using firstFault?_eq_none_iff.mp h
  rw [value_crt, hdp, hdq, hqi]
  refine ⟨_, rfl, ?_⟩
  rintro ⟨name, hname, hmissing⟩
  have hnone := octets?_of_missing hmissing
  simp only [List.mem_cons, List.not_mem_nil, or_false] at hname
  obtain rfl | rfl | rfl := hname
  · cases hdp.symm.trans hnone
    rfl
  · cases hdq.symm.trans hnone
    cases exponentP <;> rfl
  · cases hqi.symm.trans hnone
    cases exponentP <;> cases exponentQ <;> rfl

theorem rsaComponents_of_fault (h : firstFault? jwk.octets ["n", "e", "d"] = some cause) :
    jwk.rsaComponents.run.value = .error cause := by
  rw [value_rsaComponents]
  refine bind_of_firstFault h fun modulus hrest => ?_
  refine bind_of_firstFault hrest fun exponent hlast => ?_
  exact bind_of_firstFault hlast fun privateExponent hnone => by cases hnone

/-- Once modulus and exponents are read, the optional members decide about the components. -/
theorem rsaComponents_of_readable (h : firstFault? jwk.octets ["n", "e", "d"] = none) :
    ∃ complete : Option (Nat × Nat) × Option (Nat × Nat × Nat) → Rsa.Components, ∀ other : Jwk,
      (∀ name ∈ ["n", "e", "d"], other.octets name = jwk.octets name) →
        other.rsaComponents.run.value = complete <$> other.supplied := by
  obtain ⟨⟨modulus, hn⟩, ⟨exponent, he⟩, ⟨privateExponent, hd⟩, _⟩ := by
    simpa only [List.forall_mem_cons] using firstFault?_eq_none_iff.mp h
  refine ⟨fun found => ⟨Octets.toNat modulus, Octets.toNat exponent, Octets.toNat privateExponent,
    found.1, found.2⟩, fun other hother => ?_⟩
  rw [value_rsaComponents, hother "n" (by decide), hother "e" (by decide), hother "d" (by decide),
    hn, he, hd]
  rfl

end

/-- How a document makes a key for an RSA algorithm if some of its members are to be ignored, of which
the first are read after `further` ones. As long as all of them can be read they are ignored; one that
cannot be read is at fault, unless a member before it was. -/
structure IgnoresReadable (hash : Hash) (members : Members) (further ignored : List String) : Prop where
  readable : (∀ name ∈ ignored, ∃ value, (Jwk.mk members).octets? name = .ok value) →
    (signingKey (.object members) (.signing .rsa hash)).run.value =
      (signingKey (.object (members.without ignored)) (.signing .rsa hash)).run.value
  faulty : ∀ cause, (Jwk.mk members).faultBefore? further = none →
    firstFault? (Jwk.mk members).octets? ignored = some cause →
      (signingKey (.object members) (.signing .rsa hash)).run.value = .error (.error cause)
  refused : ∀ cause, (Jwk.mk members).faultBefore? further = some cause →
    (signingKey (.object members) (.signing .rsa hash)).run.value = .error (.error cause) ∧
      (signingKey (.object (members.without ignored)) (.signing .rsa hash)).run.value =
        .error (.error cause)

end Jwk

/-- For a document of the key type, an RSA key is made of the components that it tells. -/
theorem value_signingKey_rsa {members : Members} (hkeyType : members.find? "kty" = some (.string "RSA"))
    (hash : Hash) : (signingKey (.object members) (.signing .rsa hash)).run.value =
      Outcome.ofExcept (Jwk.mk members).rsaComponents.run.value >>= Key.ofRsaPrivate := by
  have hfits : (Jwk.fitting .signing (.object members) (.signing .rsa hash)).run.value =
      .ok (⟨members⟩, .rsa) := (Jwk.fitting_eq_ok_iff _ _ _ _ _).mpr ⟨rfl, rfl, hkeyType⟩
  rw [signingKey, value_run_bind, value_run_attempt, hfits]
  change (Jwk.mk members).rsaPrivateKey.run.value = _
  rw [Jwk.rsaPrivateKey, value_run_bind, value_run_attempt]
  rfl

namespace Jwk

variable {members : Members} {further ignored : List String}

theorem octets?_without_of_mem {name : String} (h : name ∈ ignored) :
    (mk (members.without ignored)).octets? name = .ok none := by
  refine octets?_of_missing ?_
  rw [Members.find?_without, if_pos h]

theorem octets?_without_of_not_mem {name : String} (h : name ∉ ignored) :
    (mk (members.without ignored)).octets? name = (mk members).octets? name := by
  refine octets?_congr ?_
  rw [Members.find?_without, if_neg h]

theorem octets_without_of_not_mem {name : String} (h : name ∉ ignored) :
    (mk (members.without ignored)).octets name = (mk members).octets name := by
  rw [octets, octets, octets?_without_of_not_mem h]

/-- Whether members are ignored is decided by what the optional ones supply. -/
theorem ignoresReadable_of_supplied (hkeyType : members.find? "kty" = some (.string "RSA"))
    (hkept : ∀ name ∈ ["kty", "n", "e", "d"], name ∉ ignored)
    (hreadable : firstFault? (mk members).octets? ignored = none →
      (mk members).supplied = (mk (members.without ignored)).supplied)
    (hfaulty : ∀ cause, firstFault? (mk members).octets? further = none →
      firstFault? (mk members).octets? ignored = some cause → (mk members).supplied = .error cause)
    (hrefused : ∀ cause, firstFault? (mk members).octets? further = some cause →
      (mk members).supplied = .error cause ∧
        (mk (members.without ignored)).supplied = .error cause)
    (hash : Hash) : IgnoresReadable hash members further ignored := by
  obtain ⟨hkeyTypeKept, hneeded⟩ := List.forall_mem_cons.mp hkept
  have hbareKeyType : (members.without ignored).find? "kty" = some (.string "RSA") := by
    rw [Members.find?_without, if_neg hkeyTypeKept, hkeyType]
  have hbare : ∀ name ∈ ["n", "e", "d"],
      (mk (members.without ignored)).octets name = (mk members).octets name :=
    fun name hname => octets_without_of_not_mem (hneeded name hname)
  have hkey := value_signingKey_rsa hkeyType hash
  have hbareKey := value_signingKey_rsa hbareKeyType hash
  cases hfirst : firstFault? (mk members).octets ["n", "e", "d"] with
  | some first =>
      -- The members that every key needs are read before all optional ones.
      rw [rsaComponents_of_fault hfirst] at hkey
      rw [rsaComponents_of_fault ((firstFault?_congr hbare).trans hfirst)] at hbareKey
      have hbefore : (mk members).faultBefore? further = some first := by
        rw [faultBefore?, hfirst, Option.some_or]
      refine ⟨fun _ => hkey.trans hbareKey.symm, fun cause hnone => ?_, fun cause hcause => ?_⟩
      · cases hbefore.symm.trans hnone
      · cases hbefore.symm.trans hcause
        exact ⟨hkey, hbareKey⟩
  | none =>
      obtain ⟨complete, hcomplete⟩ := rsaComponents_of_readable hfirst
      rw [hcomplete _ fun _ _ => rfl] at hkey
      rw [hcomplete _ hbare] at hbareKey
      have hbefore : (mk members).faultBefore? further = firstFault? (mk members).octets? further := by
        rw [faultBefore?, hfirst, Option.none_or]
      refine ⟨fun hall => ?_, fun cause hnone hfault => ?_, fun cause hcause => ?_⟩
      · rw [hkey, hbareKey, hreadable (firstFault?_eq_none_iff.mpr hall)]
      · rw [hkey, hfaulty cause (hbefore.symm.trans hnone) hfault]
        rfl
      · obtain ⟨hsupplied, hbareSupplied⟩ := hrefused cause (hbefore.symm.trans hcause)
        rw [hkey, hbareKey, hsupplied, hbareSupplied]
        exact ⟨rfl, rfl⟩

/-- Without all three values for evaluation modulo the factors, those that are there are ignored. -/
theorem ignoresReadable_crt (hkeyType : members.find? "kty" = some (.string "RSA"))
    (hmissing : ∃ name ∈ ["dp", "dq", "qi"], members.find? name = none) (hash : Hash) :
    IgnoresReadable hash members ["p", "q"] ["dp", "dq", "qi"] := by
  have hprimes : (mk (members.without ["dp", "dq", "qi"])).primes.run.value =
      (mk members).primes.run.value := by
    rw [value_primes, value_primes, octets?_without_of_not_mem (by decide),
      octets?_without_of_not_mem (by decide)]
  have hbareCrt : (mk (members.without ["dp", "dq", "qi"])).crt.run.value = .ok none := by
    rw [value_crt, octets?_without_of_mem (by decide), octets?_without_of_mem (by decide),
      octets?_without_of_mem (by decide)]
    rfl
  refine ignoresReadable_of_supplied hkeyType (by decide) (fun hreadable => ?_)
    (fun cause hfurther hfault => ?_) (fun cause hfault => ?_) hash
  · obtain ⟨crt, hcrt, hnone⟩ := crt_of_readable hreadable
    rw [supplied, supplied, hprimes, hbareCrt, hcrt, hnone hmissing]
  · obtain ⟨primes, hfound, _⟩ := primes_of_readable hfurther
    rw [supplied, hfound, crt_of_fault hfault]
    rfl
  · rw [supplied, supplied, hprimes, primes_of_fault hfault]
    exact ⟨rfl, rfl⟩

/-- Without both factors, all optional members are ignored. -/
theorem ignoresReadable_primes (hkeyType : members.find? "kty" = some (.string "RSA"))
    (hmissing : ∃ name ∈ ["p", "q"], members.find? name = none) (hash : Hash) :
    IgnoresReadable hash members [] ["p", "q", "dp", "dq", "qi"] := by
  have hbare : (mk (members.without ["p", "q", "dp", "dq", "qi"])).supplied = .ok (none, none) := by
    rw [supplied, value_primes, value_crt, octets?_without_of_mem (by decide),
      octets?_without_of_mem (by decide), octets?_without_of_mem (by decide),
      octets?_without_of_mem (by decide), octets?_without_of_mem (by decide)]
    rfl
  have hsplit : firstFault? (mk members).octets? ["p", "q", "dp", "dq", "qi"] =
      (firstFault? (mk members).octets? ["p", "q"]).or
        (firstFault? (mk members).octets? ["dp", "dq", "qi"]) := by
    rw [← firstFault?_append, List.cons_append, List.singleton_append]
  refine ignoresReadable_of_supplied hkeyType (by decide) (fun hreadable => ?_)
    (fun cause _ hfault => ?_) (fun cause hfault => by cases hfault) hash
  · obtain ⟨hfactors, hvalues⟩ := Option.or_eq_none_iff.mp (hsplit.symm.trans hreadable)
    obtain ⟨primes, hprimes, hnone⟩ := primes_of_readable hfactors
    obtain ⟨crt, hcrt, _⟩ := crt_of_readable hvalues
    rw [hbare, supplied, hprimes, hnone hmissing, hcrt]
    rfl
  · rw [hsplit] at hfault
    cases hfactors : firstFault? (mk members).octets? ["p", "q"] with
    | some first =>
        rw [hfactors, Option.some_or] at hfault
        cases hfault
        rw [supplied, primes_of_fault hfactors]
        rfl
    | none =>
        rw [hfactors, Option.none_or] at hfault
        obtain ⟨primes, hprimes, _⟩ := primes_of_readable hfactors
        rw [supplied, hprimes, crt_of_fault hfault]
        rfl

end Jwk

/-- Of an RSA document, members that are incomplete as a set are ignored as long as each can be read:
the values for evaluation modulo the factors if one of the three is missing, and with them the factors
if one of the two is. One that cannot be read is the fault of the document, in the order of reading. -/
theorem signingKey_of_incomplete {members : Members}
    (hkeyType : members.find? "kty" = some (.string "RSA")) (hash : Hash) :
    ((∃ name ∈ ["dp", "dq", "qi"], members.find? name = none) →
      Jwk.IgnoresReadable hash members ["p", "q"] ["dp", "dq", "qi"]) ∧
    ((∃ name ∈ ["p", "q"], members.find? name = none) →
      Jwk.IgnoresReadable hash members [] ["p", "q", "dp", "dq", "qi"]) :=
  ⟨fun hmissing => Jwk.ignoresReadable_crt hkeyType hmissing hash,
    fun hmissing => Jwk.ignoresReadable_primes hkeyType hmissing hash⟩

/-- An RSA document without factors, whose modulus is 6263 times 5801. -/
def Jwk.smallKey : Members :=
  [("kty", .string "RSA"), ("n", .string "Aipgjw"), ("e", .string "AQAB"), ("d", .string "AvoB")]

/-- A lone exponent of the wrong value is ignored, a lone factor likewise, and a lone exponent that is
no string is not. -/
theorem signingKey_of_lone_members :
    ∃ exponent factor spoilt : Members,
      exponent = Jwk.smallKey ++ [("p", .string "GHc"), ("q", .string "Fqk"), ("dp", .string "AQ")] ∧
      factor = Jwk.smallKey ++ [("q", .string "AQ"), ("qi", .string "AQ")] ∧
      spoilt = Jwk.smallKey ++ [("p", .string "GHc"), ("q", .string "Fqk"), ("dp", .bool true)] ∧
      (signingKey (.object exponent) (.signing .rsa .sha256)).run.value =
        (signingKey (.object (Jwk.smallKey ++ [("p", .string "GHc"), ("q", .string "Fqk")]))
          (.signing .rsa .sha256)).run.value ∧
      (signingKey (.object exponent) (.signing .rsa .sha256)).run.value.isOk = true ∧
      (signingKey (.object factor) (.signing .rsa .sha256)).run.value =
        (signingKey (.object Jwk.smallKey) (.signing .rsa .sha256)).run.value ∧
      (signingKey (.object factor) (.signing .rsa .sha256)).run.value.isOk = true ∧
      (signingKey (.object spoilt) (.signing .rsa .sha256)).run.value =
        .error (.error (.memberInvalid "dp" .notBase64String)) := by
  let exponent : Members :=
    Jwk.smallKey ++ [("p", .string "GHc"), ("q", .string "Fqk"), ("dp", .string "AQ")]
  let factor : Members := Jwk.smallKey ++ [("q", .string "AQ"), ("qi", .string "AQ")]
  let spoilt : Members :=
    Jwk.smallKey ++ [("p", .string "GHc"), ("q", .string "Fqk"), ("dp", .bool true)]
  have hexponent := (signingKey_of_incomplete (show exponent.find? "kty" = _ from rfl) .sha256).1
    ⟨"dq", by decide, rfl⟩
  have hfactor := (signingKey_of_incomplete (show factor.find? "kty" = _ from rfl) .sha256).2
    ⟨"p", by decide, rfl⟩
  have hspoilt := (signingKey_of_incomplete (show spoilt.find? "kty" = _ from rfl) .sha256).1
    ⟨"dq", by decide, rfl⟩
  have hreadable : Jwk.firstFault? (Jwk.mk exponent).octets? ["dp", "dq", "qi"] = none ∧
      Jwk.firstFault? (Jwk.mk factor).octets? ["p", "q", "dp", "dq", "qi"] = none := by
    decide +kernel
  have hfault : (Jwk.mk spoilt).faultBefore? ["p", "q"] = none ∧
      Jwk.firstFault? (Jwk.mk spoilt).octets? ["dp", "dq", "qi"] =
        some (.memberInvalid "dp" .notBase64String) := by
    decide +kernel
  refine ⟨exponent, factor, spoilt, rfl, rfl, rfl, ?_, by decide +kernel, ?_, by decide +kernel,
    hspoilt.faulty _ hfault.1 hfault.2⟩
  · exact hexponent.readable (Jwk.firstFault?_eq_none_iff.mp hreadable.1)
  · exact hfactor.readable (Jwk.firstFault?_eq_none_iff.mp hreadable.2)

/-- Members that are not used make a document fail all the same: an exponent without the other values
for evaluation modulo the factors, and a factor without the other. -/
theorem signingKey_ne_of_unreadable :
    ∃ exponent factor : Members,
      exponent = Jwk.smallKey ++ [("p", .string "GHc"), ("q", .string "Fqk"), ("dp", .bool true)] ∧
      factor = Jwk.smallKey ++ [("p", .bool true)] ∧
      exponent.find? "kty" = some (.string "RSA") ∧ exponent.find? "dq" = none ∧
      (signingKey (.object exponent) (.signing .rsa .sha256)).run.value =
        .error (.error (.memberInvalid "dp" .notBase64String)) ∧
      (signingKey (.object (exponent.without ["dp", "dq", "qi"]))
        (.signing .rsa .sha256)).run.value.isOk = true ∧
      factor.find? "kty" = some (.string "RSA") ∧ factor.find? "q" = none ∧
      (signingKey (.object factor) (.signing .rsa .sha256)).run.value =
        .error (.error (.memberInvalid "p" .notBase64String)) ∧
      (signingKey (.object (factor.without ["p", "q", "dp", "dq", "qi"]))
        (.signing .rsa .sha256)).run.value.isOk = true := by
  exact ⟨_, _, rfl, rfl, rfl, rfl, rfl, by decide +kernel, rfl, rfl, rfl, by decide +kernel⟩

end WebToken
