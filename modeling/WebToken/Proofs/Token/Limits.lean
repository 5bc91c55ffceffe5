import WebToken.Proofs.Token.Signing

/-! Which tokens are read again from what they write. A reader refuses texts of more than 65536 octets
and containers more than 127 deep, but nothing else that a token writes: its numbers may change, and its
algorithm still fits its signature, unless signing has broken off. Claims may be set beyond both limits,
and a token that has them is signed and written all the same. -/

namespace WebToken

theorem KnownText.depth_le {members : Members} {known : Option String} (h : KnownText members known)
    (hunique : Json.Every Json.NamesUnique (.object members)) {found : Json}
    (hparse : Json.parse (known.getD (Json.object members).print) = .ok found) :
    (Json.object members).depth ≤ 127 := by
  obtain ⟨hdepth, _⟩ | ⟨_, fault, hfault⟩ := h.parse_cases hunique
  · exact hdepth
  · cases hfault.symm.trans hparse

namespace Token

/-- A token whose texts stand for its members is read again if it keeps to the limits of a reader, and
only then. -/
theorem exists_read_write_iff {token : Token} (hconsistent : token.Consistent)
    (hfaithful : token.Faithful) :
    (∃ imported, (read (token.write true).value.2).run.value = .ok imported) ↔
      token.writtenHeader.utf8ByteSize ≤ 65536 ∧ token.writtenClaims.utf8ByteSize ≤ 65536 ∧
        (Json.object token.header).depth ≤ 127 ∧ (Json.object token.claims).depth ≤ 127 := by
  constructor
  · rintro ⟨imported, himported⟩
    obtain ⟨parts, hparts, hobjects⟩ := (read_eq_ok_iff _ _).mp himported
    obtain ⟨hwritten, hheaderSize, hclaimsSize⟩ := (Compact.read_eq_ok_iff _ _).mp hparts
    obtain ⟨header, claims, hheader, hclaims, _⟩ := (ofParts_eq_ok_iff _ _).mp hobjects
    rw [value_write] at hwritten
    obtain ⟨hheaderText, hclaimsText, _⟩ := Compact.write_injective hwritten
    rw [← hheaderText] at hheader hheaderSize
    rw [← hclaimsText] at hclaims hclaimsSize
    exact ⟨hheaderSize, hclaimsSize, hfaithful.header.depth_le hfaithful.headerUnique hheader,
      hfaithful.claims.depth_le hfaithful.claimsUnique hclaims⟩
  · rintro ⟨hheaderSize, hclaimsSize, hheaderDepth, hclaimsDepth⟩
    obtain ⟨_, header, hheader, hfound⟩ | ⟨hdeep, _⟩ :=
      hfaithful.header.parse_cases hfaithful.headerUnique
    · obtain ⟨_, claims, hclaims, _⟩ | ⟨hdeep, _⟩ :=
        hfaithful.claims.parse_cases hfaithful.claimsUnique
      · exact ⟨_, read_write_of_parse hconsistent hheader hclaims
          (headerAlgorithm_of_outline hfound.outline) hheaderSize hclaimsSize⟩
      · exact absurd hclaimsDepth (Nat.not_le.mpr hdeep)
    · exact absurd hheaderDepth (Nat.not_le.mpr hdeep)

/-- A header that names an algorithm is not read without a signature. -/
theorem not_read_write_of_unsigned {token : Token} (hfaithful : token.Faithful)
    (hnamed : (headerAlgorithm token.header).isSigning = true) (hunsigned : token.signature.octets = []) :
    ¬∃ imported, (read (token.write true).value.2).run.value = .ok imported := by
  rintro ⟨imported, himported⟩
  obtain ⟨hheaderText, _, hsignature⟩ := parts_of_read_write himported
  obtain ⟨hparse, _, halgorithm⟩ := parse_of_read himported
  rw [hheaderText] at hparse
  have hempty : imported.signature.isEmpty = true := by
    rw [BoundedOctets.isEmpty, hsignature, hunsigned]
    rfl
  have hnone := (consistent_of_initial (.read himported)).none_iff.mpr hempty
  obtain ⟨_, header, hheader, hfound⟩ | ⟨_, fault, hfault⟩ :=
    hfaithful.header.parse_cases hfaithful.headerUnique
  · cases hheader.symm.trans hparse
    rw [← headerAlgorithm_of_outline hfound.outline, ← halgorithm, hnone] at hnamed
    cases hnamed
  · cases hfault.symm.trans hparse

/-- In every state that a script returns with, the token is read again from what it writes if and only if
neither of its texts has more than 65536 octets and its claims nest no more than 127 deep. The header
never nests deeper. What signing leaves when it breaks off is never read again. -/
theorem read_write_iff_of_run {first : Token} (hfirst : Script.Initial first)
    (commands : List Script.Command)
    (hvalues : ∀ name value, .setClaim name value ∈ commands → Json.Every Json.NamesUnique value) :
    (∀ session ∈ Script.Session.returned ⟨first, none⟩ commands,
      (∃ imported, (read (session.current.write true).value.2).run.value = .ok imported) ↔
        session.current.writtenHeader.utf8ByteSize ≤ 65536 ∧
          session.current.writtenClaims.utf8ByteSize ≤ 65536 ∧
          (Json.object session.current.claims).depth ≤ 127) ∧
    ∀ session ∈ Script.Session.brokenOff ⟨first, none⟩ commands,
      ¬∃ imported, (read (session.current.write true).value.2).run.value = .ok imported := by
  constructor
  · intro session hsession
    have hstate := Script.Session.mem_states_iff.mpr (Or.inl hsession)
    have hheader := (readable_header_of_states hfirst hstate).depth_le
    rw [exists_read_write_iff (consistent_of_returned hfirst hsession)
      (faithful_of_states hfirst hvalues hstate)]
    exact and_congr_right fun _ => and_congr_right fun _ => and_iff_right hheader
  · intro session hsession
    have hfaithful :=
      faithful_of_states hfirst hvalues (Script.Session.mem_states_iff.mpr (Or.inr hsession))
    obtain ⟨_, hunsigned, hnamed⟩ := unsigned_of_brokenOff hsession
    exact not_read_write_of_unsigned hfaithful hnamed hunsigned

/-- A signed token whose claim is a fraction is read again. -/
theorem read_write_of_signed_fraction :
    ∃ session ∈ Script.Session.returned Script.Session.start
      [.setNumber "a" ⟨0x3FB999999999999A⟩, .sign (.signing .symmetric .sha256)
        (.object [("kty", .string "oct"), ("k", .string "c2VjcmV0")])],
      session.current.claimsText = some "\x7b\"a\":0.1\x7d" ∧
        session.current.signature.isEmpty = false ∧
        ∃ imported, (read (session.current.write true).value.2).run.value = .ok imported := by
  have hset : (Script.Session.start.step
      (.setNumber "a" ⟨0x3FB999999999999A⟩)).value.2.returns = true := by
    decide +kernel
  have hsign : ((Script.Session.start.step (.setNumber "a" ⟨0x3FB999999999999A⟩)).value.1.step
      (.sign (.signing .symmetric .sha256)
        (.object [("kty", .string "oct"), ("k", .string "c2VjcmV0")]))).value.2.returns = true := by
    decide +kernel
  have hsession := Script.Session.mem_returned_of_step hset (Script.Session.step_mem_returned hsign)
  have hvalues : ∀ name value, .setClaim name value ∈
      [Script.Command.setNumber "a" ⟨0x3FB999999999999A⟩, .sign (.signing .symmetric .sha256)
        (.object [("kty", .string "oct"), ("k", .string "c2VjcmV0")])] →
      Json.Every Json.NamesUnique value := by
    intro name value hvalue
    rcases List.mem_cons.mp hvalue with hvalue | hvalue
    · cases hvalue
    · cases List.mem_singleton.mp hvalue
  obtain ⟨hread, _⟩ := read_write_iff_of_run (.new none) _ hvalues
  refine ⟨_, hsession, by decide +kernel, by decide +kernel, (hread _ hsession).mpr ?_⟩
  decide +kernel

/-- Arrays within one another, so many around the innermost. -/
def nested : Nat → Json
  | 0 => .array []
  | depth + 1 => .array [nested depth]

theorem every_namesUnique_nested (depth : Nat) : Json.Every Json.NamesUnique (nested depth) := by
  induction depth with
  | zero => exact Json.every_scalar rfl trivial
  | succ depth ih => exact .intro trivial fun part hpart => List.mem_singleton.mp hpart ▸ ih

/-- A text is longer than the strings that it spells. -/
theorem length_lt_utf8ByteSize_print {members : Members} {name value : String}
    (h : (name, Json.string value) ∈ members) :
    value.toList.length < (Json.object members).print.utf8ByteSize := by
  have hpart : Json.string value ∈ (Json.object members).parts :=
    List.mem_map_of_mem (f := (·.2)) h
  have hstring := Json.length_spelling_lt_of_mem_parts hpart
  rw [Json.spelling_string] at hstring
  calc value.toList.length < (Json.quoted value).length := Json.length_lt_length_quoted value
    _ < (Json.spelling (.object members)).length := hstring
    _ ≤ (Json.object members).print.utf8ByteSize := Octets.length_le_utf8ByteSize _

theorem not_read_write_of_long {text : String} (h : 65536 ≤ text.toList.length) :
    ∃ session ∈ Script.Session.returned Script.Session.start [.setString "a" text],
      ¬∃ imported, (read (session.current.write true).value.2).run.value = .ok imported := by
  have hnew : Script.Initial (.new none) := .new none
  have hreturns : (Script.Session.start.step (.setString "a" text)).value.2.returns = true := rfl
  have hsession := Script.Session.step_mem_returned hreturns
  have hfaithful := faithful_of_states hnew
    (fun name value hvalue => by cases List.mem_singleton.mp hvalue)
    (Script.Session.mem_states_iff.mpr (Or.inl hsession))
  refine ⟨_, hsession, fun hread => ?_⟩
  obtain ⟨_, hsize, _⟩ :=
    (exists_read_write_iff (consistent_of_returned hnew hsession) hfaithful).mp hread
  have hlong : text.toList.length < (Json.object [("a", .string text)]).print.utf8ByteSize :=
    length_lt_utf8ByteSize_print List.mem_cons_self
  exact absurd hsize (Nat.not_le.mpr (Nat.lt_of_le_of_lt h hlong))

/-- Beyond each limit there is a token that is not read again from what it writes: one is signed, with
claims that nest 128 deep, and the other has a claim of 65536 characters. -/
theorem not_read_write_beyond_limits :
    (∃ session ∈ Script.Session.returned Script.Session.start
        [.setClaim "a" (nested 126), .sign (.signing .symmetric .sha256)
          (.object [("kty", .string "oct"), ("k", .string "c2VjcmV0")])],
      session.current.signature.isEmpty = false ∧
        ¬∃ imported, (read (session.current.write true).value.2).run.value = .ok imported) ∧
    ∃ session ∈ Script.Session.returned Script.Session.start
        [.setString "a" (String.ofList (List.replicate 65536 'a'))],
      ¬∃ imported, (read (session.current.write true).value.2).run.value = .ok imported := by
  constructor
  · have hset : (Script.Session.start.step (.setClaim "a" (nested 126))).value.2.returns = true := rfl
    have hsign : ((Script.Session.start.step (.setClaim "a" (nested 126))).value.1.step
        (.sign (.signing .symmetric .sha256)
          (.object [("kty", .string "oct"), ("k", .string "c2VjcmV0")]))).value.2.returns = true := by
      decide +kernel
    have hsession := Script.Session.mem_returned_of_step hset (Script.Session.step_mem_returned hsign)
    have hfaithful := faithful_of_states (.new none) (fun name value hvalue => ?_)
      (Script.Session.mem_states_iff.mpr (Or.inl hsession))
    · refine ⟨_, hsession, by decide +kernel, fun hread => ?_⟩
      obtain ⟨_, _, _, hdepth⟩ :=
        (exists_read_write_iff (consistent_of_returned (.new none) hsession) hfaithful).mp hread
      revert hdepth
      decide +kernel
    · rcases List.mem_cons.mp hvalue with hvalue | hvalue
      · cases hvalue
        exact every_namesUnique_nested 126
      · cases List.mem_singleton.mp hvalue
  · refine not_read_write_of_long ?_
    rw [String.toList_ofList, List.length_replicate]

end Token

end WebToken
