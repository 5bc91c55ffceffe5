import WebToken.Proofs.Utf8
import WebToken.Text.Base64Url.Decode

/-! The written form of octets as a list of sextets: its alphabet, its length, and its octets. -/

namespace WebToken.Base64Url

/-- The sextets that write octets. The last one of a group that is not full ends in zero bits. -/
def sextets : Octets → List Nat
  | a :: b :: c :: rest =>
      a.toNat / 4 :: (a.toNat % 4 * 16 + b.toNat / 16) :: (b.toNat % 16 * 4 + c.toNat / 64) ::
        c.toNat % 64 :: sextets rest
  | [a, b] => [a.toNat / 4, a.toNat % 4 * 16 + b.toNat / 16, b.toNat % 16 * 4]
  | [a] => [a.toNat / 4, a.toNat % 4 * 16]
  | [] => []

/-- The octet that writes a sextet. -/
def symbolOctet (sextet : Nat) : UInt8 := (symbol sextet).val.toUInt8

theorem sextets_lt (octets : Octets) : ∀ sextet ∈ sextets octets, sextet < 64 := by
  induction octets using sextets.induct with
  | case1 a b c rest ih =>
      have ha := a.toNat_lt
      have hb := b.toNat_lt
      have hc := c.toNat_lt
      simp only [sextets, List.forall_mem_cons]
      exact ⟨by omega, by omega, by omega, by omega, ih⟩
  | case2 a b =>
      have ha := a.toNat_lt
      have hb := b.toNat_lt
      simp only [sextets, List.forall_mem_cons]
      exact ⟨by omega, by omega, by omega, List.forall_mem_nil _⟩
  | case3 a =>
      have ha := a.toNat_lt
      simp only [sextets, List.forall_mem_cons]
      exact ⟨by omega, by omega, List.forall_mem_nil _⟩
  | case4 => exact List.forall_mem_nil _

theorem length_sextets (octets : Octets) :
    (sextets octets).length = (octets.length * 4 + 2) / 3 := by
  induction octets using sextets.induct with
  | case1 a b c rest ih =>
      simp only [sextets, List.length_cons, ih]
      omega
  | case2 | case3 | case4 => simp [sextets]

theorem length_sextets_mod (octets : Octets) : (sextets octets).length % 4 ≠ 1 := by
  rw [length_sextets]
  omega

theorem toList_encodeOnto (text : String) (octets : Octets) :
    (encodeOnto text octets).toList = text.toList ++ (sextets octets).map symbol := by
  induction text, octets using encodeOnto.induct with
  | case1 text a b c rest ih => simp [encodeOnto, sextets, ih]
  | case2 | case3 | case4 => simp [encodeOnto, sextets]

theorem toList_encode (octets : Octets) : (encode octets).toList = (sextets octets).map symbol := by
  rw [encode, toList_encodeOnto, String.toList_empty, List.nil_append]

/-! ### The alphabet -/

theorem symbol_ascii : ∀ sextet < 64, (symbol sextet).utf8Size = 1 ∧ symbol sextet ≠ '.' := by
  decide

theorem sextet?_symbolOctet : ∀ sextet < 64, sextet? (symbolOctet sextet) = some sextet := by
  decide

theorem symbolOctet_ne_padding : ∀ sextet < 64, symbolOctet sextet ≠ padding := by
  decide

theorem symbolOctet_of_sextet? {octet : UInt8} {sextet : Nat} (h : sextet? octet = some sextet) :
    sextet < 64 ∧ octet = symbolOctet sextet := by
  have htable : ∀ code < 256, ∀ found ∈ sextet? (UInt8.ofNat code),
      found < 64 ∧ UInt8.ofNat code = symbolOctet found := by
    decide +kernel
  have hcode := htable octet.toNat octet.toNat_lt sextet
  rw [UInt8.ofNat_toNat] at hcode
  exact hcode h

theorem point_not_mem_encode (octets : Octets) : '.' ∉ (encode octets).toList := by
  rw [toList_encode]
  intro h
  obtain ⟨sextet, hmem, heq⟩ := List.mem_map.mp h
  exact (symbol_ascii sextet (sextets_lt octets sextet hmem)).2 heq

theorem ofText_encode (octets : Octets) :
    Octets.ofText (encode octets) = (sextets octets).map symbolOctet := by
  rw [← String.ofList_toList (s := encode octets), toList_encode,
    Octets.ofText_ofList_map symbol _ fun sextet hmem =>
      (symbol_ascii sextet (sextets_lt octets sextet hmem)).1]
  rfl

theorem utf8ByteSize_encode (octets : Octets) :
    (encode octets).utf8ByteSize = (octets.length * 4 + 2) / 3 := by
  rw [← Octets.length_ofText, ofText_encode, List.length_map, length_sextets]

end WebToken.Base64Url
