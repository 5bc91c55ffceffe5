import WebToken.Text.Utf8

/-! Texts and their octets determine each other: decoding accepts exactly the octets of a text, and
gives that text back. -/

namespace WebToken

namespace Octets

theorem toByteArray_ofText (text : String) : (ofText text).toByteArray = text.toByteArray := by
  apply ByteArray.ext
  rw [List.data_toByteArray, ofText, Array.toArray_toList, String.toUTF8_eq_toByteArray]

theorem ofText_injective {left right : String} (h : ofText left = ofText right) : left = right := by
  apply String.toByteArray_inj.mp
  rw [← toByteArray_ofText left, h, toByteArray_ofText]

@[simp]
theorem length_ofText (text : String) : (ofText text).length = text.utf8ByteSize := by
  rw [ofText, Array.length_toList, String.toUTF8_eq_toByteArray]
  rfl

theorem ofText_ofList (chars : List Char) :
    ofText (String.ofList chars) = chars.flatMap String.utf8EncodeChar := by
  rw [ofText, String.toUTF8_eq_toByteArray, String.toByteArray_ofList, List.utf8Encode,
    List.data_toByteArray]

/-- A text has at least as many octets as characters. -/
theorem length_le_utf8ByteSize (text : String) : text.toList.length ≤ text.utf8ByteSize := by
  have hoctets := ofText_ofList text.toList
  rw [String.ofList_toList] at hoctets
  rw [← length_ofText, hoctets]
  generalize text.toList = chars
  induction chars with
  | nil => exact Nat.le_refl _
  | cons char chars ih =>
      have hchar := Char.utf8Size_pos char
      rw [List.flatMap_cons, List.length_append, List.length_cons, String.length_utf8EncodeChar]
      omega

/-- Characters of one octet each stand for themselves. -/
theorem ofText_ofList_map {α : Type} (char : α → Char) (values : List α)
    (hsize : ∀ value ∈ values, (char value).utf8Size = 1) :
    ofText (String.ofList (values.map char)) =
      values.map fun value => (char value).val.toUInt8 := by
  rw [ofText_ofList, List.flatMap_map]
  induction values with
  | nil => rfl
  | cons value values ih =>
      rw [List.flatMap_cons, List.map_cons,
        String.utf8EncodeChar_eq_singleton (hsize value List.mem_cons_self),
        ih fun other hother => hsize other (List.mem_cons_of_mem _ hother), List.singleton_append]

end Octets

namespace Utf8

theorem decode_ofText (text : String) : decode (Octets.ofText text) = .ok text := by
  rw [decode, Octets.toByteArray_ofText, String.fromUTF8?, dif_pos text.isValidUTF8]
  rfl

theorem decode_eq_ok_iff (octets : Octets) (text : String) :
    decode octets = .ok text ↔ octets = Octets.ofText text := by
  constructor
  · intro h
    rw [decode, String.fromUTF8?] at h
    by_cases hvalid : octets.toByteArray.IsValidUTF8
    · rw [dif_pos hvalid] at h
      have htext : String.fromUTF8 octets.toByteArray hvalid = text := Except.ok.inj h
      rw [← htext, Octets.ofText, String.toUTF8_eq_toByteArray]
      exact (List.data_toByteArray ▸ rfl : octets = octets.toByteArray.data.toList)
    · rw [dif_neg hvalid] at h
      cases h
  · rintro rfl
    exact decode_ofText text

end Utf8

end WebToken
