import WebToken.Proofs.Base64Url.Faults
import WebToken.Text.Base64Url.Limits

/-! Limits as callers choose them. Below a quarter of the range of machine words decoding keeps to the
limit; from there on the length of the longest written form leaves the machine words, and decoding breaks
off whatever the text, even if it writes no more than the limit allows. -/

namespace WebToken.Base64Url

/-! ### Limits that fit -/

theorem Limit.of?_eq_some {octets : UInt64} (fits : octets.toNat * 4 + 2 < 0x10000000000000000) :
    of? octets = some ⟨octets, fits⟩ :=
  dif_pos fits

theorem Limit.of?_eq_none_iff (octets : UInt64) :
    of? octets = none ↔ 0x4000000000000000 ≤ octets.toNat := by
  rw [of?]
  by_cases fits : octets.toNat * 4 + 2 < 0x10000000000000000
  · rw [dif_pos fits]
    refine iff_of_false (Option.some_ne_none _) ?_
    omega
  · rw [dif_neg fits]
    refine iff_of_true rfl ?_
    omega

/-- The length that is computed for a limit is the true one. -/
theorem toNat_encodedLength_of? {octets : UInt64} {limit : Limit} (h : Limit.of? octets = some limit) :
    (encodedLength limit).toNat = (octets.toNat * 4 + 2) / 3 := by
  rw [Limit.of?] at h
  split at h
  · cases h
    exact toNat_encodedLength _
  · cases h

section

variable {α : Type} {octets : UInt64} {decode : Limit → Except Fault α}

/-- Decoding breaks off for the limit alone. -/
theorem underLimit_eq_crash_iff :
    underLimit octets decode = .error .crash ↔ 0x4000000000000000 ≤ octets.toNat := by
  rw [← Limit.of?_eq_none_iff, underLimit]
  cases Limit.of? octets with
  | none => exact iff_of_true rfl rfl
  | some limit =>
      refine iff_of_false ?_ (Option.some_ne_none _)
      dsimp only
      cases decode limit <;> rintro ⟨⟩

theorem underLimit_of_beyond (hbeyond : 0x4000000000000000 ≤ octets.toNat) :
    underLimit octets decode = .error .crash :=
  underLimit_eq_crash_iff.mpr hbeyond

variable (fits : octets.toNat * 4 + 2 < 0x10000000000000000)
include fits

theorem underLimit_of_fits :
    underLimit octets decode =
      Outcome.ofExcept ((decode ⟨octets, fits⟩).mapError Error.base64) := by
  rw [underLimit, Limit.of?_eq_some fits]

theorem underLimit_eq_ok_iff (value : α) :
    underLimit octets decode = .ok value ↔ decode ⟨octets, fits⟩ = .ok value := by
  rw [underLimit_of_fits fits]
  cases decode ⟨octets, fits⟩ with
  | ok found =>
      change Except.ok found = Except.ok value ↔ _
      rw [Except.ok.injEq, Except.ok.injEq]
  | error fault => constructor <;> rintro ⟨⟩

theorem underLimit_eq_error_iff (failure : Failure) :
    underLimit octets decode = .error failure ↔
      ∃ fault, decode ⟨octets, fits⟩ = .error fault ∧ failure = .error (.base64 fault) := by
  rw [underLimit_of_fits fits]
  cases decode ⟨octets, fits⟩ with
  | ok found =>
      constructor
      · rintro ⟨⟩
      · rintro ⟨_, ⟨⟩, _⟩
  | error fault =>
      constructor
      · rintro ⟨⟩
        exact ⟨fault, rfl, rfl⟩
      · rintro ⟨_, ⟨⟩, rfl⟩
        rfl

end

/-! ### Written forms -/

/-- Written octets decode if the limit allows as many; else the text is refused for its length. -/
theorem decode_encode (limit : Limit) (octets : Octets) :
    decode (encode octets) limit =
      if octets.length ≤ limit.octets.toNat then .ok octets
      else .error (.encodedTooLong (encode octets).utf8ByteSize ((limit.octets.toNat * 4 + 2) / 3)) := by
  split
  · rename_i hwithin
    exact (decode_eq_ok_iff limit _ _).mpr ⟨rfl, hwithin⟩
  · rename_i hbeyond
    rw [decode, toNat_encodedLength]
    refine if_pos ?_
    rw [utf8ByteSize_encode]
    omega

theorem decodeText_encodeText (limit : Limit) (text : String) :
    decodeText (encodeText text) limit =
      if text.utf8ByteSize ≤ limit.octets.toNat then .ok text
      else .error (.encodedTooLong (encodeText text).utf8ByteSize
        ((limit.octets.toNat * 4 + 2) / 3)) := by
  rw [decodeText, encodeText, decode_encode, Octets.length_ofText]
  by_cases hwithin : text.utf8ByteSize ≤ limit.octets.toNat
  · simp only [if_pos hwithin, Utf8.decode_ofText]
  · simp only [if_neg hwithin]

section

variable {limit : UInt64} (fits : limit.toNat * 4 + 2 < 0x10000000000000000)
include fits

theorem decodeUpTo_encode (octets : Octets) :
    decodeUpTo (encode octets) limit =
      if octets.length ≤ limit.toNat then .ok octets
      else .error (.error (.base64
        (.encodedTooLong (encode octets).utf8ByteSize ((limit.toNat * 4 + 2) / 3)))) := by
  rw [decodeUpTo, underLimit_of_fits fits, decode_encode]
  split <;> rfl

theorem decodeTextUpTo_encodeText (text : String) :
    decodeTextUpTo (encodeText text) limit =
      if text.utf8ByteSize ≤ limit.toNat then .ok text
      else .error (.error (.base64
        (.encodedTooLong (encodeText text).utf8ByteSize ((limit.toNat * 4 + 2) / 3)))) := by
  rw [decodeTextUpTo, underLimit_of_fits fits, decodeText_encodeText]
  split <;> rfl

end

/-- Under a limit from `2 ^ 62` on decoding breaks off, whatever the text. Below that the length computed
for the limit is the true one, and written octets and texts decode exactly if they are within the limit,
and are refused for their length if they are not. So the limits that are kept to are those below
`2 ^ 62`. -/
theorem decodeUpTo_under_any_limit (limit : UInt64) :
    (0x4000000000000000 ≤ limit.toNat → ∀ text,
      decodeUpTo text limit = .error .crash ∧ decodeTextUpTo text limit = .error .crash) ∧
    (limit.toNat < 0x4000000000000000 →
      (∃ found, Limit.of? limit = some found ∧
        (encodedLength found).toNat = (limit.toNat * 4 + 2) / 3) ∧
      (∀ octets : Octets, decodeUpTo (encode octets) limit =
        if octets.length ≤ limit.toNat then .ok octets
        else .error (.error (.base64
          (.encodedTooLong (encode octets).utf8ByteSize ((limit.toNat * 4 + 2) / 3))))) ∧
      ∀ text : String, decodeTextUpTo (encodeText text) limit =
        if text.utf8ByteSize ≤ limit.toNat then .ok text
        else .error (.error (.base64
          (.encodedTooLong (encodeText text).utf8ByteSize ((limit.toNat * 4 + 2) / 3))))) ∧
    ((∀ octets : Octets, decodeUpTo (encode octets) limit = .ok octets ↔
        octets.length ≤ limit.toNat) ↔
      limit.toNat < 0x4000000000000000) := by
  refine ⟨fun hbeyond text => ⟨underLimit_of_beyond hbeyond, underLimit_of_beyond hbeyond⟩,
    fun hlimit => ?_, fun hkept => ?_, fun hlimit octets => ?_⟩
  · have fits : limit.toNat * 4 + 2 < 0x10000000000000000 := by omega
    have hfound := Limit.of?_eq_some fits
    exact ⟨⟨_, hfound, toNat_encodedLength_of? hfound⟩, decodeUpTo_encode fits,
      decodeTextUpTo_encodeText fits⟩
  · -- The written form of no octets at all is within every limit.
    refine Nat.lt_of_not_le fun hbeyond => ?_
    have hempty := (hkept []).mpr (Nat.zero_le _)
    rw [decodeUpTo, underLimit_of_beyond hbeyond] at hempty
    cases hempty
  · have fits : limit.toNat * 4 + 2 < 0x10000000000000000 := by omega
    rw [decodeUpTo, underLimit_eq_ok_iff fits, decode_eq_ok_iff]
    exact and_iff_right rfl

/-- The greatest limit that is kept to, and the one after it. -/
theorem decodeUpTo_at_greatest_limit :
    (0x3fffffffffffffff : UInt64).toNat < 0x4000000000000000 ∧
      decodeUpTo "AA" 0x3fffffffffffffff = .ok [0] ∧
      decodeTextUpTo "YQ" 0x3fffffffffffffff = .ok "a" ∧
      0x4000000000000000 ≤ (0x4000000000000000 : UInt64).toNat ∧
      decodeUpTo "!" 0x4000000000000000 = .error .crash := by
  have hgreatest : (0x3fffffffffffffff : UInt64).toNat < 0x4000000000000000 := by decide
  have hnext : 0x4000000000000000 ≤ (0x4000000000000000 : UInt64).toNat := by decide
  obtain ⟨_, hdecode, hkept⟩ := decodeUpTo_under_any_limit 0x3fffffffffffffff
  obtain ⟨_, _, htext⟩ := hdecode hgreatest
  obtain ⟨hcrash, _⟩ := decodeUpTo_under_any_limit 0x4000000000000000
  exact ⟨hgreatest, (hkept.mpr hgreatest [0]).mpr (by decide), (htext "a").trans (if_pos (by decide)),
    hnext, (hcrash hnext "!").1⟩

/-- Under a limit of `2 ^ 62` octets no octet decodes. -/
theorem decodeUpTo_crash_of_large_limit :
    [(0 : UInt8)].length ≤ (0x4000000000000000 : UInt64).toNat ∧
      decodeUpTo (encode [0]) 0x4000000000000000 = .error .crash :=
  ⟨by decide, rfl⟩

end WebToken.Base64Url
