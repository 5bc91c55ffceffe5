import WebToken.Proofs.Base64Url.Faults
import WebToken.Proofs.Token.Operations

/-! What a text is refused for when it is read as a token: for what it is, and for nothing else. A segment
that is too long as it is written is refused before it is decoded, and one that is not never decodes to
too much, so that neither the limits of decoding nor the capacity for a signature come into play. -/

namespace WebToken

/-! ### Messages -/

namespace Error

/-- The cause lies in a text that is read as a token: in its shape, in what a segment holds, or in the
length of a segment as it is written. -/
def OfText : Error → Prop
  | segmentCount | json _ | segmentTooLarge .. | signatureMismatch .. => True
  | base64 fault => fault.OfContent
  | _ => False

variable {cause : Error}

theorem OfText.category (h : cause.OfText) : cause.category = .malformedInput := by
  cases cause with
  | segmentCount | json | segmentTooLarge | signatureMismatch | base64 => rfl
  | _ => exact h.elim

theorem OfText.ne_capacityExceeded (h : cause.OfText) (length limit : Nat) :
    cause ≠ capacityExceeded length limit := by
  rintro rfl
  exact h

/-- Messages of malformed texts begin with different characters. -/
theorem head?_message (h : cause.category = .malformedInput) :
    cause.message.toList.head? = some (match cause with
      | segmentCount => 'I'
      | base64 _ => 'B'
      | json _ => 'J'
      | segmentTooLarge .. => 'T'
      | _ => 'A') := by
  cases cause with
  | segmentCount => rfl
  | base64 fault => exact Base64Url.head?_base64Message fault
  | json | segmentTooLarge | signatureMismatch =>
      unfold message
      simp only [String.toList_append, List.head?_append]
      rfl
  | _ => cases h

/-- The message of such a cause never tells a limit of decoding. -/
theorem OfText.message_ne (h : cause.OfText) {fault : Base64Url.Fault} (hfault : ¬ fault.OfContent) :
    cause.message ≠ (base64 fault).message := by
  intro hsame
  have hhead := congrArg (fun text : String => text.toList.head?) hsame
  have hbase : (base64 fault).category = .malformedInput := rfl
  simp only [head?_message h.category, head?_message hbase] at hhead
  -- Only another fault of base-64 begins alike, and goes on with a message of its own.
  cases cause with
  | base64 other =>
      have hother : other.OfContent := h
      exact hother.base64Message_ne hfault hsame
  | segmentCount | json | segmentTooLarge | signatureMismatch => cases hhead
  | _ => exact h

end Error

/-! ### Segments -/

namespace Compact

theorem segments_refuses (text : String) : Refuses Error.OfText (segments text) := by
  rw [segments]
  split
  · exact .ok _
  · exact .error trivial

theorem checkSize_refuses (segment : Segment) (written : String) (limit : Base64Url.Limit) :
    Refuses Error.OfText (checkSize segment written limit) := by
  rw [checkSize]
  split
  · exact .error trivial
  · exact .ok ()

theorem readText_refuses (segment : Segment) (written : String) :
    Refuses Error.OfText (readText segment written) := by
  refine (checkSize_refuses _ _ _).bind fun _ hsize => ?_
  have hfits := (checkSize_eq_ok_iff _ _ _).mp hsize
  cases hdecoded : Base64Url.decodeText written textLimit with
  | ok text => exact .ok text
  | error fault => exact .error (Base64Url.decodeText_refuses hfits fault hdecoded)

/-- What was decoded within its limit fits the buffer. -/
theorem readSignature_refuses (written : String) : Refuses Error.OfText (readSignature written) := by
  refine (checkSize_refuses _ _ _).bind fun _ hsize => ?_
  have hfits := (checkSize_eq_ok_iff _ _ _).mp hsize
  cases hdecoded : Base64Url.decode written signatureLimit with
  | ok octets =>
      have hlength : octets.length ≤ 2048 :=
        ((Base64Url.decode_eq_ok_iff signatureLimit _ _).mp hdecoded).2
      have hbounded := (BoundedOctets.ofOctets_eq_ok_iff octets ⟨octets, hlength⟩).mpr rfl
      show Refuses Error.OfText (BoundedOctets.ofOctets octets)
      rw [hbounded]
      exact .ok _
  | error fault => exact .error (Base64Url.decode_refuses hfits fault hdecoded)

theorem ofSegments_refuses (header claims signature : String) :
    Refuses Error.OfText (ofSegments header claims signature) := by
  refine (readText_refuses _ _).bind fun header _ => ?_
  refine (readText_refuses _ _).bind fun claims _ => ?_
  exact (readSignature_refuses _).bind fun signature _ => .ok _

theorem decode_refuses (text : String) : Refuses Error.OfText (decode text).run.value := by
  rw [value_decode]
  exact (segments_refuses text).bind fun written _ => ofSegments_refuses _ _ _

/-! ### Segments that are too long -/

theorem readText_of_oversize (segment : Segment) {written : String} (h : 87382 < written.utf8ByteSize) :
    readText segment written = .error (.segmentTooLarge segment written.utf8ByteSize 87382) := by
  have hsize : checkSize segment written textLimit =
      .error (.segmentTooLarge segment written.utf8ByteSize 87382) := if_pos h
  rw [readText, hsize]
  rfl

theorem readSignature_of_oversize {written : String} (h : 2731 < written.utf8ByteSize) :
    readSignature written = .error (.segmentTooLarge .signature written.utf8ByteSize 2731) := by
  have hsize : checkSize .signature written signatureLimit =
      .error (.segmentTooLarge .signature written.utf8ByteSize 2731) := if_pos h
  rw [readSignature, hsize]
  rfl

end Compact

/-! ### Tokens -/

namespace Token

theorem readObject_refuses (segment : Segment) (text : String) :
    Refuses Error.OfText (readObject segment text) := by
  rw [readObject]
  split
  · exact .ok _
  · exact .error trivial
  · exact .error trivial

theorem ofParts_refuses (parts : Compact) : Refuses Error.OfText (ofParts parts) := by
  refine (readObject_refuses _ _).bind fun header _ => ?_
  refine (readObject_refuses _ _).bind fun claims _ => ?_
  dsimp only
  split
  · exact .error trivial
  · exact .ok _

theorem read_refuses (text : String) : Refuses Error.OfText (read text).run.value := by
  rw [value_read]
  exact (Compact.decode_refuses text).bind fun parts _ => ofParts_refuses parts

/-- A text is refused as malformed, and neither for the capacity for a signature nor for a limit of
decoding. A segment that is longer than the longest written form is refused as too large before anything
else is asked of it, and one that is not decodes to no more than its limit. -/
theorem malformed_of_read (text : String) :
    (∀ cause, (Compact.decode text).run.value = .error cause ∨
        (read text).run.value = .error cause →
      cause.category = .malformedInput ∧ ∀ length limit : Nat,
        cause ≠ .capacityExceeded length limit ∧
        cause.message ≠ (Error.base64 (.encodedTooLong length limit)).message ∧
        cause.message ≠ (Error.base64 (.decodedTooLong length limit)).message) ∧
    (∀ cause, (Compact.decode text).run.value = .error cause →
      (read text).run.value = .error cause) ∧
    ∀ header claims signature, Compact.segments text = .ok (header, claims, signature) →
      (87382 < header.utf8ByteSize → (Compact.decode text).run.value =
        .error (.segmentTooLarge .header header.utf8ByteSize 87382)) ∧
      (∀ headerText, Compact.readText .header header = .ok headerText →
        87382 < claims.utf8ByteSize → (Compact.decode text).run.value =
          .error (.segmentTooLarge .claims claims.utf8ByteSize 87382)) ∧
      (∀ headerText claimsText, Compact.readText .header header = .ok headerText →
        Compact.readText .claims claims = .ok claimsText →
        2731 < signature.utf8ByteSize → (Compact.decode text).run.value =
          .error (.segmentTooLarge .signature signature.utf8ByteSize 2731)) ∧
      (∀ written octets, written = header ∨ written = claims → written.utf8ByteSize ≤ 87382 →
        Base64Url.decodeOctets (Octets.ofText written) = .ok octets → octets.length ≤ 65536) ∧
      ∀ octets, signature.utf8ByteSize ≤ 2731 →
        Base64Url.decodeOctets (Octets.ofText signature) = .ok octets → octets.length ≤ 2048 := by
  refine ⟨fun cause hcause => ?_, fun cause hcause => ?_, fun header claims signature hsegments => ?_⟩
  · have htext : cause.OfText := by
      rcases hcause with hcause | hcause
      · exact Compact.decode_refuses text cause hcause
      · exact read_refuses text cause hcause
    refine ⟨htext.category, fun length limit => ⟨htext.ne_capacityExceeded length limit, ?_, ?_⟩⟩
    · exact htext.message_ne id
    · exact htext.message_ne id
  · rw [value_read, hcause]
    rfl
  · have hdecode : (Compact.decode text).run.value = Compact.ofSegments header claims signature := by
      rw [Compact.value_decode, Compact.read, hsegments]
      rfl
    rw [hdecode]
    refine ⟨fun hlong => ?_, fun headerText hheader hlong => ?_,
      fun headerText claimsText hheader hclaims hlong => ?_,
      fun written octets _ hfits hoctets => ?_, fun octets hfits hoctets => ?_⟩
    · rw [Compact.ofSegments, Compact.readText_of_oversize .header hlong]
      rfl
    · rw [Compact.ofSegments, hheader]
      show (Compact.readText .claims claims >>= fun _ => _) = _
      rw [Compact.readText_of_oversize .claims hlong]
      rfl
    · rw [Compact.ofSegments, hheader]
      show (Compact.readText .claims claims >>= fun _ => _) = _
      rw [hclaims]
      show (Compact.readSignature signature >>= fun _ => _) = _
      rw [Compact.readSignature_of_oversize hlong]
      rfl
    · apply Base64Url.length_le_of_decodeOctets Compact.textLimit hoctets
      rwa [Octets.length_ofText]
    · apply Base64Url.length_le_of_decodeOctets Compact.signatureLimit hoctets
      rwa [Octets.length_ofText]

/-- A signature of one octet too much is refused as it is written, where nothing else is wrong with the
text; and where every segment is short enough, each decodes to little. -/
theorem malformed_of_long_signature :
    (∃ signature, Compact.segments ("e30.e30." ++ Base64Url.encode (List.replicate 2049 0)) =
        .ok ("e30", "e30", signature) ∧ 2731 < signature.utf8ByteSize ∧
      (read ("e30.e30." ++ Base64Url.encode (List.replicate 2049 0))).run.value =
        .error (.segmentTooLarge .signature 2732 2731) ∧
      (Error.segmentTooLarge .signature 2732 2731).category = .malformedInput) ∧
    Compact.segments "e30.e30.AQID" = .ok ("e30", "e30", "AQID") ∧
    Base64Url.decodeOctets (Octets.ofText "e30") = .ok [123, 125] ∧
    [(123 : UInt8), 125].length ≤ 65536 ∧
    Base64Url.decodeOctets (Octets.ofText "AQID") = .ok [1, 2, 3] ∧
    [(1 : UInt8), 2, 3].length ≤ 2048 := by
  constructor
  · have hwritten : Compact.segments ("e30.e30." ++ Base64Url.encode (List.replicate 2049 0)) =
        .ok ("e30", "e30", Base64Url.encode (List.replicate 2049 0)) := by
      have hjoin : "e30.e30." = "e30" ++ "." ++ "e30" ++ "." := by decide
      rw [hjoin]
      exact Compact.segments_join (by decide) (by decide) (Base64Url.point_not_mem_encode _)
    have hsize : (Base64Url.encode (List.replicate 2049 0)).utf8ByteSize = 2732 := by
      rw [Base64Url.utf8ByteSize_encode, List.length_replicate]
    obtain ⟨hcategory, hread, hsegments⟩ :=
      malformed_of_read ("e30.e30." ++ Base64Url.encode (List.replicate 2049 0))
    obtain ⟨_, _, hlong, _, _⟩ := hsegments _ _ _ hwritten
    have hdecode := hlong "{}" "{}" rfl rfl (by rw [hsize]; decide)
    rw [hsize] at hdecode
    have hcause := hread _ hdecode
    exact ⟨_, hwritten, by rw [hsize]; decide, hcause, (hcategory _ (.inr hcause)).1⟩
  · have hwritten : Compact.segments "e30.e30.AQID" = .ok ("e30", "e30", "AQID") := rfl
    have hheader : Base64Url.decodeOctets (Octets.ofText "e30") = .ok [123, 125] := rfl
    have hsignature : Base64Url.decodeOctets (Octets.ofText "AQID") = .ok [1, 2, 3] := rfl
    obtain ⟨_, _, hsegments⟩ := malformed_of_read "e30.e30.AQID"
    obtain ⟨_, _, _, htext, hoctets⟩ := hsegments _ _ _ hwritten
    exact ⟨hwritten, hheader, htext _ _ (.inl rfl) (by decide) hheader, hsignature,
      hoctets _ (by decide) hsignature⟩

end Token

end WebToken
