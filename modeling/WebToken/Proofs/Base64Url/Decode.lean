import WebToken.Proofs.Action
import WebToken.Proofs.Base64Url.Encode

/-! Decoding accepts exactly the written forms of octets, and is the inverse of encoding. The last
group of a text is read symbol by symbol, and the groups before it four symbols at a time. -/

namespace WebToken.Base64Url

/-! ### Groups of sextets -/

theorem sextets_group {a b c d : Nat} (ha : a < 64) (hb : b < 64) (hc : c < 64) (hd : d < 64)
    (rest : Octets) :
    sextets (UInt8.ofNat (a * 4 + b / 16) :: UInt8.ofNat (b % 16 * 16 + c / 4) ::
      UInt8.ofNat (c % 4 * 64 + d) :: rest) = a :: b :: c :: d :: sextets rest := by
  simp only [sextets, UInt8.toNat_ofNat', List.cons.injEq, and_true]
  omega

theorem sextets_pair {a b c : Nat} (ha : a < 64) (hb : b < 64) (hc : c < 64) (hzero : c % 4 = 0) :
    sextets [UInt8.ofNat (a * 4 + b / 16), UInt8.ofNat (b % 16 * 16 + c / 4)] = [a, b, c] := by
  simp only [sextets, UInt8.toNat_ofNat', List.cons.injEq, and_true]
  omega

theorem sextets_single {a b : Nat} (ha : a < 64) (hb : b < 64) (hzero : b % 16 = 0) :
    sextets [UInt8.ofNat (a * 4 + b / 16)] = [a, b] := by
  simp only [sextets, UInt8.toNat_ofNat', List.cons.injEq, and_true]
  omega

theorem first_octet (a : UInt8) (low : Nat) (hlow : low < 16) :
    UInt8.ofNat (a.toNat / 4 * 4 + (a.toNat % 4 * 16 + low) / 16) = a := by
  rw [← UInt8.toNat_inj, UInt8.toNat_ofNat']
  have := a.toNat_lt
  omega

theorem second_octet (b : UInt8) (high low : Nat) (hlow : low < 4) :
    UInt8.ofNat ((high * 16 + b.toNat / 16) % 16 * 16 + (b.toNat % 16 * 4 + low) / 4) = b := by
  rw [← UInt8.toNat_inj, UInt8.toNat_ofNat']
  have := b.toNat_lt
  omega

theorem third_octet (c : UInt8) (high : Nat) :
    UInt8.ofNat ((high * 4 + c.toNat / 64) % 4 * 64 + c.toNat % 64) = c := by
  rw [← UInt8.toNat_inj, UInt8.toNat_ofNat']
  have := c.toNat_lt
  omega

/-! ### The last group -/

/-- Sextets with the octets that write them, latest first. -/
def readBack (values : List Nat) : List (UInt8 × Nat) :=
  (values.map fun value => (symbolOctet value, value)).reverse

theorem readLast_symbols (start index : Nat) (values : List Nat)
    (hlt : ∀ value ∈ values, value < 64)
    (symbols : List (UInt8 × Nat)) :
    readLast start index ⟨symbols, none⟩ (values.map symbolOctet) =
      .ok ⟨readBack values ++ symbols, none⟩ := by
  induction values generalizing index symbols with
  | nil => rfl
  | cons value values ih =>
      obtain ⟨hvalue, hvalues⟩ := List.forall_mem_cons.mp hlt
      rw [List.map_cons, readLast, if_neg (symbolOctet_ne_padding value hvalue)]
      simp only [sextet?_symbolOctet value hvalue]
      rw [ih (index + 1) hvalues, readBack, readBack, List.map_cons, List.reverse_cons,
        List.append_assoc, List.singleton_append]

theorem readLast_padded {start index : Nat} {group found : LastGroup} {octets : Octets}
    (h : readLast start index group octets = .ok found) (hpadded : group.paddedFrom ≠ none) :
    found.paddedFrom ≠ none := by
  induction octets generalizing index group with
  | nil => exact Except.ok.inj h ▸ hpadded
  | cons octet octets ih =>
      obtain ⟨first, hfirst⟩ := Option.ne_none_iff_exists'.mp hpadded
      rw [readLast] at h
      by_cases hpad : octet = padding
      · rw [if_pos hpad] at h
        split at h
        · cases h
        · exact ih h (by rw [hfirst]; exact Option.some_ne_none first)
      · simp only [if_neg hpad, hfirst] at h
        cases h

/-- A last group without padding consists of symbols. -/
theorem symbols_of_readLast {start index : Nat} {symbols : List (UInt8 × Nat)} {found : LastGroup}
    {octets : Octets} (h : readLast start index ⟨symbols, none⟩ octets = .ok found)
    (hplain : found.paddedFrom = none) :
    ∃ values : List Nat, (∀ value ∈ values, value < 64) ∧ octets = values.map symbolOctet ∧
      found = ⟨readBack values ++ symbols, none⟩ := by
  induction octets generalizing index symbols with
  | nil => exact ⟨[], List.forall_mem_nil _, rfl, (Except.ok.inj h).symm⟩
  | cons octet octets ih =>
      rw [readLast] at h
      by_cases hpad : octet = padding
      · rw [if_pos hpad] at h
        split at h
        · cases h
        · exact absurd hplain (readLast_padded h (Option.some_ne_none index))
      · simp only [if_neg hpad] at h
        cases hvalue : sextet? octet with
        | none =>
            rw [hvalue] at h
            cases h
        | some value =>
            simp only [hvalue] at h
            obtain ⟨hlt, hoctet⟩ := symbolOctet_of_sextet? hvalue
            obtain ⟨values, hvalues, hoctets, hfound⟩ := ih h
            refine ⟨value :: values, List.forall_mem_cons.mpr ⟨hlt, hvalues⟩, ?_, ?_⟩
            · rw [hoctet, hoctets, List.map_cons]
            · rw [hfound, hoctet, readBack, readBack, List.map_cons, List.reverse_cons,
                List.append_assoc, List.singleton_append]

theorem closeLast_padded {start : Nat} {decoded octets : Octets} {group : LastGroup}
    (h : closeLast start decoded group = .ok octets) : group.paddedFrom = none := by
  obtain ⟨symbols, paddedFrom⟩ := group
  cases paddedFrom with
  | none => rfl
  | some first => rcases symbols with _ | ⟨_, _ | ⟨_, _⟩⟩ <;> cases h

theorem sextets_of_closeLast {start : Nat} {decoded octets : Octets} {values : List Nat}
    (hlength : values.length ≤ 4) (hlt : ∀ value ∈ values, value < 64)
    (h : closeLast start decoded ⟨readBack values, none⟩ = .ok octets) :
    ∃ more, octets = decoded.reverse ++ more ∧ values = sextets more := by
  rcases values with _ | ⟨a, _ | ⟨b, _ | ⟨c, _ | ⟨d, _ | ⟨_, _⟩⟩⟩⟩⟩
  · exact ⟨[], by rw [List.append_nil]; exact (Except.ok.inj h).symm, rfl⟩
  · cases h
  all_goals simp only [List.forall_mem_cons] at hlt
  · by_cases hzero : b % 16 = 0
    · rw [show closeLast start decoded ⟨readBack [a, b], none⟩ = _ from if_pos hzero] at h
      refine ⟨_, ?_, (sextets_single hlt.1 hlt.2.1 hzero).symm⟩
      rw [← Except.ok.inj h, List.reverse_cons]
    · rw [show closeLast start decoded ⟨readBack [a, b], none⟩ = _ from if_neg hzero] at h
      cases h
  · by_cases hzero : c % 4 = 0
    · rw [show closeLast start decoded ⟨readBack [a, b, c], none⟩ = _ from if_pos hzero] at h
      refine ⟨_, ?_, (sextets_pair hlt.1 hlt.2.1 hlt.2.2.1 hzero).symm⟩
      rw [← Except.ok.inj h, List.reverse_cons, List.reverse_cons, List.append_assoc,
        List.singleton_append]
    · rw [show closeLast start decoded ⟨readBack [a, b, c], none⟩ = _ from if_neg hzero] at h
      cases h
  · refine ⟨_, ?_, (sextets_group hlt.1 hlt.2.1 hlt.2.2.1 hlt.2.2.2.1 []).symm⟩
    rw [← Except.ok.inj h]
    simp only [List.reverse_cons, List.append_assoc, List.cons_append, List.nil_append]
  · simp only [List.length_cons] at hlength
    omega

theorem closeLast_sextets (start : Nat) (decoded more : Octets) (hlength : more.length ≤ 3) :
    closeLast start decoded ⟨readBack (sextets more), none⟩ = .ok (decoded.reverse ++ more) := by
  rcases more with _ | ⟨x, _ | ⟨y, _ | ⟨z, _ | ⟨_, _⟩⟩⟩⟩
  · rw [List.append_nil]
    rfl
  · have hx := first_octet x 0 (by omega)
    refine (if_pos (by omega)).trans ?_
    rw [← Nat.add_zero (x.toNat % 4 * 16), hx, List.reverse_cons]
  · have hx := first_octet x (y.toNat / 16) (by have := y.toNat_lt; omega)
    have hy := second_octet y (x.toNat % 4) 0 (by omega)
    refine (if_pos (by omega)).trans ?_
    rw [← Nat.add_zero (y.toNat % 16 * 4), hx, hy, List.reverse_cons, List.reverse_cons,
      List.append_assoc, List.singleton_append]
  · have hx := first_octet x (y.toNat / 16) (by have := y.toNat_lt; omega)
    have hy := second_octet y (x.toNat % 4) (z.toNat / 64) (by have := z.toNat_lt; omega)
    have hz := third_octet z (y.toNat % 16)
    change Except.ok (_ :: _ :: _ :: decoded).reverse = _
    rw [hx, hy, hz]
    simp only [List.reverse_cons, List.append_assoc, List.cons_append, List.nil_append]
  · simp only [List.length_cons] at hlength
    omega

/-! ### Whole texts -/

theorem readSymbol_eq_ok {offset : Nat} {octet : UInt8} {sextet : Nat}
    (h : readSymbol offset octet = .ok sextet) : sextet < 64 ∧ octet = symbolOctet sextet := by
  rw [readSymbol] at h
  cases hfound : sextet? octet with
  | none =>
      rw [hfound] at h
      cases h
  | some found =>
      simp only [hfound, Except.ok.injEq] at h
      exact h ▸ symbolOctet_of_sextet? hfound

theorem readSymbol_symbolOctet (offset : Nat) {sextet : Nat} (hlt : sextet < 64) :
    readSymbol offset (symbolOctet sextet) = .ok sextet := by
  rw [readSymbol, sextet?_symbolOctet sextet hlt]

theorem sextets_of_decodeFrom {start : Nat} {decoded text octets : Octets}
    (h : decodeFrom start decoded text = .ok octets) :
    ∃ more, octets = decoded.reverse ++ more ∧ text = (sextets more).map symbolOctet := by
  induction start, decoded, text using decodeFrom.induct with
  | case1 start decoded a b c d e rest ih =>
      rw [decodeFrom, bind_eq_ok_iff] at h
      obtain ⟨first, hfirst, h⟩ := h
      obtain ⟨second, hsecond, h⟩ := bind_eq_ok_iff.mp h
      obtain ⟨third, hthird, h⟩ := bind_eq_ok_iff.mp h
      obtain ⟨fourth, hfourth, h⟩ := bind_eq_ok_iff.mp h
      obtain ⟨more, hoctets, hmore⟩ := ih _ _ _ _ h
      obtain ⟨ha, rfl⟩ := readSymbol_eq_ok hfirst
      obtain ⟨hb, rfl⟩ := readSymbol_eq_ok hsecond
      obtain ⟨hc, rfl⟩ := readSymbol_eq_ok hthird
      obtain ⟨hd, rfl⟩ := readSymbol_eq_ok hfourth
      refine ⟨UInt8.ofNat (first * 4 + second / 16) :: UInt8.ofNat (second % 16 * 16 + third / 4) ::
        UInt8.ofNat (third % 4 * 64 + fourth) :: more, ?_, ?_⟩
      · rw [hoctets]
        simp only [List.reverse_cons, List.append_assoc, List.cons_append, List.nil_append]
      · rw [sextets_group ha hb hc hd more, hmore]
        rfl
  | case2 start decoded last hlast =>
      rw [decodeFrom.eq_2 start decoded last hlast] at h
      obtain ⟨group, hgroup, hclose⟩ := bind_eq_ok_iff.mp h
      obtain ⟨values, hvalues, rfl, rfl⟩ := symbols_of_readLast hgroup (closeLast_padded hclose)
      have hlength : values.length ≤ 4 := by
        rcases values with _ | ⟨a, _ | ⟨b, _ | ⟨c, _ | ⟨d, _ | ⟨e, rest⟩⟩⟩⟩⟩
        · simp
        · simp
        · simp
        · simp
        · simp
        · exact absurd rfl (hlast _ _ _ _ _ _)
      rw [List.append_nil] at hclose
      obtain ⟨more, hoctets, hmore⟩ := sextets_of_closeLast hlength hvalues hclose
      exact ⟨more, hoctets, congrArg _ hmore⟩

/-- A last group gives the octets that its sextets write. -/
theorem decodeFrom_last (start : Nat) (decoded more : Octets) (hlength : more.length ≤ 3) :
    decodeFrom start decoded ((sextets more).map symbolOctet) = .ok (decoded.reverse ++ more) := by
  have hlast : ∀ (a b c d e : UInt8) (rest : Octets),
      (sextets more).map symbolOctet = a :: b :: c :: d :: e :: rest → False := by
    intro a b c d e rest h
    have hsymbols := congrArg List.length h
    simp only [List.length_map, length_sextets, List.length_cons] at hsymbols
    omega
  rw [decodeFrom.eq_2 _ _ _ hlast, readLast_symbols _ _ _ (sextets_lt more), List.append_nil]
  exact closeLast_sextets start decoded more hlength

theorem decodeFrom_sextets (start : Nat) (decoded more : Octets) :
    decodeFrom start decoded ((sextets more).map symbolOctet) = .ok (decoded.reverse ++ more) := by
  induction more using sextets.induct generalizing start decoded with
  | case1 x y z rest ih =>
      cases hrest : sextets rest with
      | nil =>
          have hlength := congrArg List.length hrest
          rw [length_sextets, List.length_nil] at hlength
          exact decodeFrom_last start decoded _ (by simp only [List.length_cons]; omega)
      | cons next others =>
          have hx := first_octet x (y.toNat / 16) (by have := y.toNat_lt; omega)
          have hy := second_octet y (x.toNat % 4) (z.toNat / 64) (by have := z.toNat_lt; omega)
          have hz := third_octet z (y.toNat % 16)
          have hlt := sextets_lt (x :: y :: z :: rest)
          simp only [sextets, List.forall_mem_cons] at hlt
          have htail := ih (start + 4) (z :: y :: x :: decoded)
          rw [hrest, List.map_cons] at htail
          rw [sextets, hrest]
          simp only [List.map_cons]
          rw [decodeFrom, readSymbol_symbolOctet _ hlt.1, readSymbol_symbolOctet _ hlt.2.1,
            readSymbol_symbolOctet _ hlt.2.2.1, readSymbol_symbolOctet _ hlt.2.2.2.1]
          change decodeFrom (start + 4) (_ :: _ :: _ :: decoded) _ = _
          rw [hx, hy, hz, htail]
          simp only [List.reverse_cons, List.append_assoc, List.cons_append, List.nil_append]
  | case2 x y => exact decodeFrom_last start decoded _ (by simp)
  | case3 x => exact decodeFrom_last start decoded _ (by simp)
  | case4 => exact decodeFrom_last start decoded _ (by simp)

theorem strayLast?_encode (octets : Octets) :
    strayLast? (Octets.ofText (encode octets)) = none := by
  rw [strayLast?, ofText_encode, List.length_map, if_neg (length_sextets_mod octets)]

/-- Decoding is strict: of all texts only the written form of the octets decodes to them. -/
theorem decodeOctets_eq_ok_iff (text octets : Octets) :
    decodeOctets text = .ok octets ↔ text = Octets.ofText (encode octets) := by
  constructor
  · intro h
    rw [decodeOctets] at h
    cases hstray : strayLast? text with
    | some fault =>
        rw [hstray] at h
        cases h
    | none =>
        simp only [hstray] at h
        obtain ⟨more, hoctets, htext⟩ := sextets_of_decodeFrom h
        rw [List.reverse_nil, List.nil_append] at hoctets
        rw [htext, ofText_encode, hoctets]
  · rintro rfl
    rw [decodeOctets, strayLast?_encode, ofText_encode]
    exact decodeFrom_sextets 0 [] octets

theorem encode_injective {left right : Octets} (h : encode left = encode right) : left = right := by
  have hleft := (decodeOctets_eq_ok_iff (Octets.ofText (encode left)) left).mpr rfl
  have hright := (decodeOctets_eq_ok_iff (Octets.ofText (encode left)) right).mpr (by rw [h])
  exact Except.ok.inj (hleft.symm.trans hright)

theorem encodeText_injective {left right : String} (h : encodeText left = encodeText right) :
    left = right :=
  Octets.ofText_injective (encode_injective h)

/-! ### Limits -/

/-- The length is computed in machine words without wrapping. -/
theorem toNat_encodedLength (limit : Limit) :
    (encodedLength limit).toNat = (limit.octets.toNat * 4 + 2) / 3 := by
  have hfits := limit.fits
  rw [encodedLength, UInt64.toNat_div, UInt64.toNat_add, UInt64.toNat_mul]
  simp only [UInt64.reduceToNat]
  omega

theorem decode_eq_ok_iff (limit : Limit) (text : String) (octets : Octets) :
    decode text limit = .ok octets ↔
      text = encode octets ∧ octets.length ≤ limit.octets.toNat := by
  rw [decode, toNat_encodedLength]
  constructor
  · intro h
    split at h
    · cases h
    split at h
    · cases h
    rename_i found hfound
    split at h
    · cases h
    rename_i hfits
    cases h
    exact ⟨Octets.ofText_injective ((decodeOctets_eq_ok_iff _ _).mp hfound), Nat.le_of_not_lt hfits⟩
  · rintro ⟨rfl, hfits⟩
    rw [if_neg (by rw [utf8ByteSize_encode]; omega), (decodeOctets_eq_ok_iff _ _).mpr rfl]
    exact if_neg (Nat.not_lt.mpr hfits)

theorem decodeText_eq_ok_iff (limit : Limit) (written text : String) :
    decodeText written limit = .ok text ↔
      written = encodeText text ∧ text.utf8ByteSize ≤ limit.octets.toNat := by
  rw [decodeText, encodeText, ← Octets.length_ofText]
  constructor
  · intro h
    split at h
    · cases h
    rename_i octets hoctets
    split at h
    · cases h
    rename_i found hfound
    cases h
    obtain rfl := (Utf8.decode_eq_ok_iff _ _).mp hfound
    exact (decode_eq_ok_iff limit _ _).mp hoctets
  · intro h
    rw [(decode_eq_ok_iff limit _ _).mpr h]
    simp only [Utf8.decode_ofText]

end WebToken.Base64Url
