import WebToken.Proofs.Base64Url.Decode

/-! What a written form is refused for. The limit on its length leaves nothing for the limit on what it
decodes to: of texts that are no longer than the longest written form, none decodes to too many octets,
and reading the symbols finds fault with the symbols alone. -/

namespace WebToken.Base64Url

/-- The fault lies in the text, and not in a limit on its size. -/
def Fault.OfContent : Fault → Prop
  | encodedTooLong .. | decodedTooLong .. => False
  | _ => True

/-! ### Messages -/

theorem Fault.head?_message (fault : Fault) :
    fault.message.toList.head? = some (match fault with
      | encodedTooLong .. => 'E'
      | decodedTooLong .. => 'D'
      | notText _ => 'I'
      | _ => 'B') := by
  cases fault with
  | invalidPadding => rfl
  | _ =>
      unfold message
      simp only [String.toList_append, List.head?_append]
      rfl

theorem Fault.OfContent.message_ne {fault other : Fault} (h : fault.OfContent)
    (hother : ¬ other.OfContent) : fault.message ≠ other.message := by
  intro hsame
  have hhead := congrArg (fun text : String => text.toList.head?) hsame
  simp only [head?_message] at hhead
  cases fault <;> cases other <;> simp_all [OfContent]

theorem head?_base64Message (fault : Fault) :
    (base64Message fault).toList.head? = some 'B' := by
  unfold base64Message
  simp only [String.toList_append, List.head?_append]
  rfl

theorem Fault.OfContent.base64Message_ne {fault other : Fault} (h : fault.OfContent)
    (hother : ¬ other.OfContent) : base64Message fault ≠ base64Message other := by
  intro hsame
  have hparts : "Base64URL decoding failed: " ++ fault.message =
      "Base64URL decoding failed: " ++ other.message := hsame
  exact h.message_ne hother ((String.append_right_inj _).mp hparts)

/-! ### Symbols -/

theorem readSymbol_refuses (offset : Nat) (octet : UInt8) :
    Refuses Fault.OfContent (readSymbol offset octet) := by
  rw [readSymbol]
  split
  · exact .ok _
  · exact .error trivial

theorem ofContent_of_strayLast? {text : Octets} {fault : Fault} (h : strayLast? text = some fault) :
    fault.OfContent := by
  rw [strayLast?] at h
  split at h
  · split at h
    · split at h
      · cases h
        trivial
      · cases h
    · cases h
  · cases h

theorem readLast_refuses (start index : Nat) (group : LastGroup) (octets : Octets) :
    Refuses Fault.OfContent (readLast start index group octets) := by
  induction octets generalizing index group with
  | nil => exact .ok _
  | cons octet octets ih =>
      rw [readLast]
      by_cases hpad : octet = padding
      · rw [if_pos hpad]
        split
        · exact .error trivial
        · exact ih _ _
      · rw [if_neg hpad]
        split
        · exact .error trivial
        · split
          · exact .error trivial
          · exact ih _ _

theorem closeLast_refuses (start : Nat) (decoded : Octets) (group : LastGroup) :
    Refuses Fault.OfContent (closeLast start decoded group) := by
  rw [closeLast.eq_def]
  split
  · exact .ok _
  · exact .error trivial
  · exact .error trivial
  · exact .error trivial
  · split
    · exact .ok _
    · exact .error trivial
  · split
    · exact .ok _
    · exact .error trivial
  · exact .ok _

theorem decodeFrom_refuses (start : Nat) (decoded text : Octets) :
    Refuses Fault.OfContent (decodeFrom start decoded text) := by
  induction start, decoded, text using decodeFrom.induct with
  | case1 start decoded a b c d e rest ih =>
      rw [decodeFrom]
      refine (readSymbol_refuses _ _).bind fun first _ => ?_
      refine (readSymbol_refuses _ _).bind fun second _ => ?_
      refine (readSymbol_refuses _ _).bind fun third _ => ?_
      refine (readSymbol_refuses _ _).bind fun fourth _ => ?_
      exact ih first second third fourth
  | case2 start decoded last hlast =>
      rw [decodeFrom.eq_2 start decoded last hlast]
      exact (readLast_refuses _ _ _ _).bind fun group _ => closeLast_refuses _ _ group

theorem decodeOctets_refuses (text : Octets) : Refuses Fault.OfContent (decodeOctets text) := by
  rw [decodeOctets]
  cases hstray : strayLast? text with
  | some fault => exact .error (ofContent_of_strayLast? hstray)
  | none => exact decodeFrom_refuses 0 [] text

/-! ### Limits -/

/-- A text that is no longer than the longest written form decodes to no more octets than this form
writes. -/
theorem length_le_of_decodeOctets (limit : Limit) {text octets : Octets}
    (h : decodeOctets text = .ok octets) (hfits : text.length ≤ (encodedLength limit).toNat) :
    octets.length ≤ limit.octets.toNat := by
  have hlength : text.length = (octets.length * 4 + 2) / 3 := by
    rw [(decodeOctets_eq_ok_iff _ _).mp h, Octets.length_ofText, utf8ByteSize_encode]
  rw [toNat_encodedLength] at hfits
  omega

section

variable {limit : Limit}

/-- Such a text meets neither limit: decoding it is reading its symbols. -/
theorem decode_eq_decodeOctets {text : String}
    (hfits : text.utf8ByteSize ≤ (encodedLength limit).toNat) :
    decode text limit = decodeOctets (Octets.ofText text) := by
  rw [decode, if_neg (Nat.not_lt.mpr hfits)]
  cases hdecoded : decodeOctets (Octets.ofText text) with
  | error fault => rfl
  | ok octets =>
      have hlength := length_le_of_decodeOctets limit hdecoded (by rwa [Octets.length_ofText])
      exact if_neg (Nat.not_lt.mpr hlength)

theorem decode_refuses {text : String} (hfits : text.utf8ByteSize ≤ (encodedLength limit).toNat) :
    Refuses Fault.OfContent (decode text limit) := by
  rw [decode_eq_decodeOctets hfits]
  exact decodeOctets_refuses _

theorem decodeText_refuses {text : String}
    (hfits : text.utf8ByteSize ≤ (encodedLength limit).toNat) :
    Refuses Fault.OfContent (decodeText text limit) := by
  rw [decodeText]
  cases hdecoded : decode text limit with
  | error fault => exact .error (decode_refuses hfits fault hdecoded)
  | ok octets =>
      dsimp only
      split
      · exact .error trivial
      · exact .ok _

end

end WebToken.Base64Url
