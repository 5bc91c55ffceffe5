import WebToken.Proofs.Base64Url.Limits

/-! Decoding within a limit. The texts that decode are the written forms of octets, as many as the limit
allows; a text is refused for its size if it is longer than the longest of these, and the size of what it
decodes to is never found too large. -/

namespace WebToken.Base64Url

/-- The first letter of a message tells the limit on decoded octets from all other faults. -/
theorem Fault.eq_decodedTooLong_of_message {fault : Fault}
    (h : "Decoded size exceeds limit".toList <+: fault.message.toList) :
    ∃ length limit, fault = decodedTooLong length limit := by
  obtain ⟨rest, hrest⟩ := h
  have hfirst := fault.head?_message
  rw [← hrest] at hfirst
  cases fault with
  | decodedTooLong length limit => exact ⟨length, limit, rfl⟩
  | _ => cases hfirst

section

variable (limit : Limit)

/-- The longest written form has the length that is computed for it in machine words. -/
theorem toNat_encodedLength_eq {longest : Octets} (hlongest : longest.length = limit.octets.toNat) :
    (encodedLength limit).toNat = (encode longest).utf8ByteSize := by
  rw [toNat_encodedLength, utf8ByteSize_encode, hlongest]

/-- The only refusal for size is that of the text itself. -/
theorem decode_refused_for_size_iff (text : String) (fault : Fault) :
    (decode text limit = .error fault ∧ ¬ fault.OfContent) ↔
      (encodedLength limit).toNat < text.utf8ByteSize ∧
        fault = .encodedTooLong text.utf8ByteSize (encodedLength limit).toNat := by
  constructor
  · rintro ⟨hfault, hsize⟩
    have hlong : (encodedLength limit).toNat < text.utf8ByteSize := by
      refine Nat.lt_of_not_le fun hfits => hsize ?_
      exact decode_refuses hfits fault hfault
    refine ⟨hlong, ?_⟩
    rw [decode, if_pos hlong] at hfault
    exact (Except.error.inj hfault).symm
  · rintro ⟨hlong, rfl⟩
    exact ⟨if_pos hlong, id⟩

theorem decode_ne_decodedTooLong (text : String) (length bound : Nat) :
    decode text limit ≠ .error (.decodedTooLong length bound) := by
  intro hfault
  obtain ⟨_, hother⟩ := (decode_refused_for_size_iff limit text _).mp ⟨hfault, id⟩
  cases hother

end

/-- A text decodes to octets if it is their written form and they are within the limit, and not
otherwise; so do the octets of a text in UTF-8. All other texts are refused. A refusal for size is one of
the text that is given, for being longer than the written form of as many octets as the limit allows. -/
theorem decode_canonical {limit : UInt64} (hlimit : limit.toNat * 4 + 2 < 0x10000000000000000) :
    (∀ text octets, decodeUpTo text limit = .ok octets ↔
      text = encode octets ∧ octets.length ≤ limit.toNat) ∧
    (∀ text failure, decodeUpTo text limit = .error failure → ∃ fault : Fault,
      failure = .error (.base64 fault) ∧
        ¬ "Decoded size exceeds limit".toList <+: fault.message.toList) ∧
    (∀ text longest fault, longest.length = limit.toNat →
      ((decodeUpTo text limit = .error (.error (.base64 fault)) ∧ ¬ fault.OfContent) ↔
        (encode longest).utf8ByteSize < text.utf8ByteSize ∧
          fault = .encodedTooLong text.utf8ByteSize (encode longest).utf8ByteSize)) ∧
    ∀ written text, decodeTextUpTo written limit = .ok text ↔
      written = encode (Octets.ofText text) ∧ (Octets.ofText text).length ≤ limit.toNat := by
  refine ⟨fun text octets => ?_, fun text failure hfailure => ?_,
    fun text longest fault hlongest => ?_, fun written text => ?_⟩
  · rw [decodeUpTo, underLimit_eq_ok_iff hlimit]
    exact decode_eq_ok_iff _ text octets
  · obtain ⟨fault, hfault, rfl⟩ := (underLimit_eq_error_iff hlimit failure).mp hfailure
    refine ⟨fault, rfl, fun hmessage => ?_⟩
    obtain ⟨length, bound, rfl⟩ := Fault.eq_decodedTooLong_of_message hmessage
    exact decode_ne_decodedTooLong _ text length bound hfault
  · have hrefused : decodeUpTo text limit = .error (.error (.base64 fault)) ↔
        decode text ⟨limit, hlimit⟩ = .error fault := by
      rw [decodeUpTo, underLimit_eq_error_iff hlimit]
      simp
    rw [hrefused, ← toNat_encodedLength_eq ⟨limit, hlimit⟩ hlongest]
    exact decode_refused_for_size_iff _ text fault
  · rw [decodeTextUpTo, underLimit_eq_ok_iff hlimit, Octets.length_ofText]
    exact decodeText_eq_ok_iff _ written text

/-- Under the largest limit that machine words allow for, five octets decode, and a last letter that
leaves bits over is refused, but not for its size; under a limit of four octets the text is too long. -/
theorem decode_canonical_of_greeting :
    (0x3fffffffffffffff : UInt64).toNat * 4 + 2 < 0x10000000000000000 ∧
      decodeUpTo "SGVsbG8" 0x3fffffffffffffff = .ok [72, 101, 108, 108, 111] ∧
      decodeTextUpTo "SGVsbG8" 0x3fffffffffffffff = .ok "Hello" ∧
      (∃ fault : Fault, decodeUpTo "SGVsbG9" 0x3fffffffffffffff = .error (.error (.base64 fault)) ∧
        ¬ "Decoded size exceeds limit".toList <+: fault.message.toList) ∧
      (4 : UInt64).toNat * 4 + 2 < 0x10000000000000000 ∧
      decodeUpTo "SGVsbG8" 4 = .error (.error (.base64 (.encodedTooLong 7 6))) := by
  have hlargest : (0x3fffffffffffffff : UInt64).toNat * 4 + 2 < 0x10000000000000000 := by decide
  have hfour : (4 : UInt64).toNat * 4 + 2 < 0x10000000000000000 := by decide
  obtain ⟨hdecode, hmessage, _, htext⟩ := decode_canonical hlargest
  obtain ⟨_, _, hsize, _⟩ := decode_canonical hfour
  refine ⟨hlargest, (hdecode _ _).mpr ⟨rfl, by decide⟩, (htext _ _).mpr ⟨rfl, by decide⟩, ?_,
    hfour, ?_⟩
  · have hspoilt : decodeUpTo "SGVsbG9" 0x3fffffffffffffff =
        .error (.error (.base64 (.invalidLastSymbol 57 6))) := rfl
    obtain ⟨fault, hfault, hother⟩ := hmessage _ _ hspoilt
    cases hfault
    exact ⟨_, hspoilt, hother⟩
  · exact ((hsize "SGVsbG8" [72, 101, 108, 108] _ rfl).mpr ⟨by decide, rfl⟩).1

end WebToken.Base64Url
