import WebToken.Compact
import WebToken.Proofs.Base64Url.Decode

/-! The compact form: reading accepts exactly what writing makes of parts within their limits, and
gives these parts back. -/

namespace WebToken

namespace BoundedOctets

variable {capacity : Nat}

theorem ofOctets_eq_ok_iff (octets : Octets) (bounded : BoundedOctets capacity) :
    ofOctets octets = .ok bounded ↔ octets = bounded.octets := by
  constructor
  · intro h
    rw [ofOctets] at h
    split at h <;> cases h
    rfl
  · rintro rfl
    exact dif_pos bounded.bounded

end BoundedOctets

namespace Compact

/-! ### Segments -/

theorem eq_join_of_segments {text header claims signature : String}
    (h : segments text = .ok (header, claims, signature)) :
    text = header ++ "." ++ claims ++ "." ++ signature := by
  rw [segments] at h
  split at h
  · rename_i first second third hsplit
    cases h
    have hjoin : ['.'].intercalate (text.toList.splitOn '.') = text.toList :=
      List.intercalate_splitOn '.'
    rw [hsplit] at hjoin
    apply String.toList_injective
    rw [← hjoin]
    simp
  · cases h

theorem splitOn_append_point {first : String} (hfirst : '.' ∉ first.toList) (rest : String) :
    (first ++ ("." ++ rest)).toList.splitOn '.' = first.toList :: rest.toList.splitOn '.' := by
  rw [String.toList_append, String.toList_append]
  exact List.splitOn_append_cons_self_of_not_mem hfirst _

theorem segments_join {header claims signature : String} (hheader : '.' ∉ header.toList)
    (hclaims : '.' ∉ claims.toList) (hsignature : '.' ∉ signature.toList) :
    segments (header ++ "." ++ claims ++ "." ++ signature) = .ok (header, claims, signature) := by
  rw [segments, String.append_assoc, String.append_assoc, String.append_assoc,
    splitOn_append_point hheader, splitOn_append_point hclaims, List.splitOn_eq_singleton hsignature]
  simp only [String.ofList_toList]

theorem eq_nil_of_append_point {between rest right : List Char}
    (h : '.' :: right = between ++ '.' :: rest) (hright : '.' ∉ right) :
    between = [] ∧ right = rest := by
  cases between with
  | nil => exact ⟨rfl, (List.cons.inj h).2⟩
  | cons _ between =>
      rw [(List.cons.inj h).2] at hright
      exact absurd (List.mem_append_right _ List.mem_cons_self) hright

/-- What comes after the last point holds no point, and that tells it. -/
theorem append_point_injective {left right before last : String}
    (h : left ++ "." ++ right = before ++ "." ++ last) (hright : '.' ∉ right.toList)
    (hlast : '.' ∉ last.toList) : left = before ∧ right = last := by
  have hlists : left.toList ++ '.' :: right.toList = before.toList ++ '.' :: last.toList := by
    simpa using congrArg String.toList h
  -- If one front part were longer, the point after it would fall into the other's last part.
  obtain ⟨between, hbefore, hrest⟩ | ⟨between, hleft, hrest⟩ := List.append_eq_append_iff.mp hlists
  · obtain ⟨rfl, hsame⟩ := eq_nil_of_append_point hrest hright
    rw [List.append_nil] at hbefore
    exact ⟨String.toList_injective hbefore.symm, String.toList_injective hsame⟩
  · obtain ⟨rfl, hsame⟩ := eq_nil_of_append_point hrest hlast
    rw [List.append_nil] at hleft
    exact ⟨String.toList_injective hleft, String.toList_injective hsame.symm⟩

/-! ### Limits -/

theorem checkSize_eq_ok_iff (segment : Segment) (written : String) (limit : Base64Url.Limit) :
    checkSize segment written limit = .ok () ↔
      written.utf8ByteSize ≤ (Base64Url.encodedLength limit).toNat := by
  rw [checkSize]
  by_cases hlong : (Base64Url.encodedLength limit).toNat < written.utf8ByteSize
  · simp only [if_pos hlong, reduceCtorEq, false_iff]
    exact Nat.not_le.mpr hlong
  · simp only [if_neg hlong, true_iff]
    exact Nat.le_of_not_lt hlong

/-- The check of the written length refuses nothing that the later check would let pass. -/
theorem checkSize_encode {limit : Base64Url.Limit} (segment : Segment) {octets : Octets}
    (hfits : octets.length ≤ limit.octets.toNat) :
    checkSize segment (Base64Url.encode octets) limit = .ok () := by
  rw [checkSize_eq_ok_iff, Base64Url.toNat_encodedLength, Base64Url.utf8ByteSize_encode]
  omega

theorem readText_eq_ok_iff (segment : Segment) (written text : String) :
    readText segment written = .ok text ↔
      written = Base64Url.encodeText text ∧ text.utf8ByteSize ≤ 65536 := by
  rw [readText, bind_eq_ok_iff]
  constructor
  · rintro ⟨_, _, h⟩
    split at h
    · rename_i found hfound
      cases h
      exact (Base64Url.decodeText_eq_ok_iff textLimit _ _).mp hfound
    · cases h
  · rintro ⟨rfl, hfits⟩
    refine ⟨(), ?_, ?_⟩
    · apply checkSize_encode
      rwa [Octets.length_ofText]
    · rw [(Base64Url.decodeText_eq_ok_iff textLimit _ _).mpr ⟨rfl, hfits⟩]

theorem readSignature_eq_ok_iff (written : String) (signature : Signature) :
    readSignature written = .ok signature ↔ written = Base64Url.encode signature.octets := by
  rw [readSignature, bind_eq_ok_iff]
  constructor
  · rintro ⟨_, _, h⟩
    split at h
    · rename_i octets hoctets
      rw [← (BoundedOctets.ofOctets_eq_ok_iff _ _).mp h]
      exact ((Base64Url.decode_eq_ok_iff signatureLimit _ _).mp hoctets).1
    · cases h
  · rintro rfl
    refine ⟨(), checkSize_encode _ signature.bounded, ?_⟩
    rw [(Base64Url.decode_eq_ok_iff signatureLimit _ _).mpr ⟨rfl, signature.bounded⟩]
    exact (BoundedOctets.ofOctets_eq_ok_iff _ _).mpr rfl

theorem ofSegments_eq_ok_iff (header claims signature : String) (parts : Compact) :
    ofSegments header claims signature = .ok parts ↔
      (header = Base64Url.encodeText parts.header ∧ parts.header.utf8ByteSize ≤ 65536) ∧
      (claims = Base64Url.encodeText parts.claims ∧ parts.claims.utf8ByteSize ≤ 65536) ∧
      signature = Base64Url.encode parts.signature.octets := by
  simp only [ofSegments, bind_eq_ok_iff, readText_eq_ok_iff, readSignature_eq_ok_iff]
  constructor
  · rintro ⟨_, hheader, _, hclaims, _, hsignature, h⟩
    cases h
    exact ⟨hheader, hclaims, hsignature⟩
  · rintro ⟨hheader, hclaims, hsignature⟩
    exact ⟨_, hheader, _, hclaims, _, hsignature, rfl⟩

/-! ### Whole texts -/

/-- The segments of a compact form: two without signature, three with one. -/
theorem splitOn_write (header claims : String) (signature : Option Octets) :
    (write header claims signature).toList.splitOn '.' =
      (Base64Url.encodeText header).toList :: (Base64Url.encodeText claims).toList ::
        signature.toList.map fun octets => (Base64Url.encode octets).toList := by
  have hheader : '.' ∉ (Base64Url.encodeText header).toList := Base64Url.point_not_mem_encode _
  have hclaims : '.' ∉ (Base64Url.encodeText claims).toList := Base64Url.point_not_mem_encode _
  cases signature with
  | none =>
      rw [write, signingInput, String.append_assoc, splitOn_append_point hheader,
        List.splitOn_eq_singleton hclaims]
      rfl
  | some octets =>
      rw [write, signingInput, String.append_assoc, String.append_assoc, String.append_assoc,
        splitOn_append_point hheader, splitOn_append_point hclaims,
        List.splitOn_eq_singleton (Base64Url.point_not_mem_encode octets)]
      rfl

/-- Different parts have different compact forms, with or without a signature. -/
theorem parts_eq_of_write {header claims otherHeader otherClaims : String}
    {signature otherSignature : Option Octets}
    (h : write header claims signature = write otherHeader otherClaims otherSignature) :
    header = otherHeader ∧ claims = otherClaims ∧ signature = otherSignature := by
  have hsegments := splitOn_write header claims signature
  rw [h, splitOn_write, List.cons.injEq, List.cons.injEq] at hsegments
  obtain ⟨hheader, hclaims, hsignature⟩ := hsegments
  refine ⟨Base64Url.encodeText_injective (String.toList_injective hheader.symm),
    Base64Url.encodeText_injective (String.toList_injective hclaims.symm), ?_⟩
  cases signature with
  | none =>
      cases otherSignature with
      | none => rfl
      | some other => cases hsignature
  | some octets =>
      cases otherSignature with
      | none => cases hsignature
      | some other =>
          obtain ⟨hlast, _⟩ := List.cons.inj hsignature
          rw [Base64Url.encode_injective (String.toList_injective hlast.symm)]

theorem write_injective {header claims otherHeader otherClaims : String}
    {signature otherSignature : Octets}
    (h : write header claims (some signature) = write otherHeader otherClaims (some otherSignature)) :
    header = otherHeader ∧ claims = otherClaims ∧ signature = otherSignature := by
  obtain ⟨hheader, hclaims, hsignature⟩ := parts_eq_of_write h
  exact ⟨hheader, hclaims, Option.some.inj hsignature⟩

/-- A compact form with a signature is split at its last point in one way. -/
theorem write_eq_append_iff (header claims before last : String) (signature : Octets) :
    write header claims (some signature) = before ++ "." ++ last ∧ '.' ∉ last.toList ↔
      before = signingInput header claims ∧ last = Base64Url.encode signature := by
  have hpoint := Base64Url.point_not_mem_encode signature
  constructor
  · rintro ⟨htext, hlast⟩
    obtain ⟨hbefore, hsignature⟩ := append_point_injective htext hpoint hlast
    exact ⟨hbefore.symm, hsignature.symm⟩
  · rintro ⟨rfl, rfl⟩
    exact ⟨rfl, hpoint⟩

theorem read_eq_ok_iff (text : String) (parts : Compact) :
    read text = .ok parts ↔
      text = write parts.header parts.claims (some parts.signature.octets) ∧
        parts.header.utf8ByteSize ≤ 65536 ∧ parts.claims.utf8ByteSize ≤ 65536 := by
  rw [read, bind_eq_ok_iff]
  constructor
  · rintro ⟨⟨header, claims, signature⟩, hsegments, h⟩
    obtain ⟨⟨rfl, hheader⟩, ⟨rfl, hclaims⟩, rfl⟩ := (ofSegments_eq_ok_iff _ _ _ _).mp h
    exact ⟨eq_join_of_segments hsegments, hheader, hclaims⟩
  · rintro ⟨rfl, hheader, hclaims⟩
    refine ⟨(_, _, _), segments_join ?_ ?_ ?_, (ofSegments_eq_ok_iff _ _ _ _).mpr
      ⟨⟨rfl, hheader⟩, ⟨rfl, hclaims⟩, rfl⟩⟩
    · exact Base64Url.point_not_mem_encode _
    · exact Base64Url.point_not_mem_encode _
    · exact Base64Url.point_not_mem_encode _

theorem value_decode (text : String) : (decode text).run.value = read text := by
  simp only [decode, value_run_bind, value_run_lift, value_run_report]
  rfl

/-- Reading and writing are inverse to each other on the parts within their limits, so that no two
texts have the same parts. -/
theorem decode_iff_encode :
    (∀ (text header claims : String) (signature : Octets),
      (∃ parts, (decode text).run.value = .ok parts ∧ parts.header = header ∧
        parts.claims = claims ∧ parts.signature.octets = signature) ↔
      text = (encode header claims (some signature)).value ∧ header.utf8ByteSize ≤ 65536 ∧
        claims.utf8ByteSize ≤ 65536 ∧ signature.length ≤ 2048) ∧
    (∀ left right : String,
      (∃ parts, (decode left).run.value = .ok parts ∧ (decode right).run.value = .ok parts) ↔
      left = right ∧ ∃ parts, (decode left).run.value = .ok parts) := by
  simp only [value_decode]
  refine ⟨fun text header claims signature => ⟨?_, ?_⟩, fun left right => ⟨?_, ?_⟩⟩
  · rintro ⟨parts, hread, rfl, rfl, rfl⟩
    obtain ⟨htext, hheader, hclaims⟩ := (read_eq_ok_iff _ _).mp hread
    exact ⟨htext, hheader, hclaims, parts.signature.bounded⟩
  · rintro ⟨htext, hheader, hclaims, hsignature⟩
    exact ⟨⟨header, claims, ⟨signature, hsignature⟩⟩,
      (read_eq_ok_iff _ _).mpr ⟨htext, hheader, hclaims⟩, rfl, rfl, rfl⟩
  · rintro ⟨parts, hleft, hright⟩
    refine ⟨?_, parts, hleft⟩
    rw [((read_eq_ok_iff _ _).mp hleft).1, ((read_eq_ok_iff _ _).mp hright).1]
  · rintro ⟨rfl, parts, h⟩
    exact ⟨parts, h, h⟩

example : read "e30.e30." = .ok ⟨"\x7b\x7d", "\x7b\x7d", .empty⟩ := by rfl

end Compact

end WebToken
