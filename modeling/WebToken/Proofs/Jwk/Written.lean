import WebToken.Proofs.Base64Url.Faults
import WebToken.Proofs.Jwk

/-! What the members of a document are read as. A member has a value exactly if it is the written form of
octets, of one at least and of no more than the limit; the limit on its text leaves nothing for that on
the octets, so that what else it is refused for lies in the text. A secret is read in the same way for
signing and for verification. -/

namespace WebToken

/-- The fault does not lie in a limit on the size of what is decoded. -/
def MemberFault.OfContent : MemberFault → Prop
  | undecodable fault => fault.OfContent
  | _ => True

/-- The message of such a fault never tells a limit of decoding. -/
theorem MemberFault.OfContent.message_ne_base64 {fault : MemberFault} (h : fault.OfContent)
    {other : Base64Url.Fault} (hother : ¬ other.OfContent) :
    fault.message ≠ (Error.base64 other).message := by
  intro hsame
  have hhead : fault.message.toList.head? = some 'B' := by
    rw [hsame]
    exact Base64Url.head?_base64Message other
  cases fault with
  | undecodable found =>
      have hfound : found.OfContent := h
      exact hfound.base64Message_ne hother hsame
  | notString | notBase64String | empty => cases hhead

namespace Jwk

/-- The member is the written form of the octets, of one at least and of no more than the limit. -/
def Writes (jwk : Jwk) (member : String) (octets : Octets) : Prop :=
  jwk.members.find? member = some (.string (Base64Url.encode octets)) ∧
    0 < octets.length ∧ octets.length ≤ 1024

/-- Members that write the same octets have the same text. -/
theorem Writes.find?_eq {jwk other : Jwk} {member otherMember : String} {octets : Octets}
    (h : jwk.Writes member octets) (hother : other.Writes otherMember octets) :
    jwk.members.find? member = other.members.find? otherMember :=
  h.1.trans hother.1.symm

theorem textLimit_eq : textLimit = 1366 := by decide

/-- What a member is read as: nothing, the octets that it writes, or a refusal that tells why it writes
none. -/
inductive Reads (jwk : Jwk) (member : String) : Except Error (Option Octets) → Prop where
  | missing (h : jwk.members.find? member = none) : Reads jwk member (.ok none)
  | written {octets : Octets} (h : jwk.Writes member octets) : Reads jwk member (.ok (some octets))
  | tooLarge {text : String} (h : jwk.members.find? member = some (.string text))
      (hsize : 1366 < text.utf8ByteSize) :
      Reads jwk member (.error (.memberTooLarge member text.utf8ByteSize 1366))
  | invalid {fault : MemberFault} (hpresent : jwk.members.find? member ≠ none)
      (hsize : ∀ text, jwk.members.find? member = some (.string text) → text.utf8ByteSize ≤ 1366)
      (hnone : ∀ octets, ¬ jwk.Writes member octets) (hfault : fault.OfContent) :
      Reads jwk member (.error (.memberInvalid member fault))

theorem reads_octets? (jwk : Jwk) (member : String) : jwk.Reads member (jwk.octets? member) := by
  rw [octets?]
  split
  · rename_i hmissing
    exact .missing hmissing
  · rename_i text hmember
    rw [textLimit_eq]
    split
    · rename_i hlong
      exact .tooLarge hmember hlong
    · rename_i hfits
      have hpresent : jwk.members.find? member ≠ none := by
        rw [hmember]
        exact Option.some_ne_none _
      have hsize : ∀ found, jwk.members.find? member = some (.string found) →
          found.utf8ByteSize ≤ 1366 := by
        intro found hfound
        cases hmember.symm.trans hfound
        exact Nat.le_of_not_lt hfits
      -- Octets that the member writes are what its text decodes to.
      have hdecoded : ∀ octets, jwk.Writes member octets →
          Base64Url.decode text valueLimit = .ok octets := by
        rintro octets ⟨hwritten, _, hlength⟩
        cases hmember.symm.trans hwritten
        exact (Base64Url.decode_eq_ok_iff valueLimit _ _).mpr ⟨rfl, hlength⟩
      split
      · rename_i fault hfault
        refine .invalid hpresent hsize (fun octets hwrites => ?_) ?_
        · cases hfault.symm.trans (hdecoded octets hwrites)
        · exact Base64Url.decode_refuses (hsize text hmember) fault hfault
      · rename_i hempty
        refine .invalid hpresent hsize (fun octets hwrites => ?_) trivial
        cases hempty.symm.trans (hdecoded octets hwrites)
        exact Nat.lt_irrefl 0 hwrites.2.1
      · rename_i octets hne hoctets
        obtain ⟨rfl, hlength⟩ := (Base64Url.decode_eq_ok_iff valueLimit _ _).mp hoctets
        exact .written ⟨hmember, List.length_pos_iff.mpr hne, hlength⟩
  · rename_i value hstring hmember
    refine .invalid ?_ (fun text htext => ?_) (fun octets hwrites => ?_) trivial
    · rw [hmember]
      exact Option.some_ne_none _
    · cases hmember.symm.trans htext
      exact absurd rfl (hstring _)
    · cases hmember.symm.trans hwrites.1
      exact absurd rfl (hstring _)

/-- The cases of reading a member, each told by what the member is, and no others. -/
structure ReadExactly (jwk : Jwk) (member : String) : Prop where
  written : ∀ octets, jwk.octets? member = .ok (some octets) ↔ jwk.Writes member octets
  missing : jwk.octets? member = .ok none ↔ jwk.members.find? member = none
  tooLarge : ∀ size, jwk.octets? member = .error (.memberTooLarge member size 1366) ↔
    1366 < size ∧ ∃ text, jwk.members.find? member = some (.string text) ∧ text.utf8ByteSize = size
  invalid : (∃ fault, jwk.octets? member = .error (.memberInvalid member fault)) ↔
    jwk.members.find? member ≠ none ∧ (∀ octets, ¬ jwk.Writes member octets) ∧
      ∀ text, jwk.members.find? member = some (.string text) → text.utf8ByteSize ≤ 1366
  refused : ∀ cause, jwk.octets? member = .error cause →
    (∃ size, cause = .memberTooLarge member size 1366) ∨
      ∃ fault : MemberFault, cause = .memberInvalid member fault ∧ ∀ length limit,
        fault.message ≠ (Error.base64 (.encodedTooLong length limit)).message ∧
        fault.message ≠ (Error.base64 (.decodedTooLong length limit)).message

theorem readExactly (jwk : Jwk) (member : String) : jwk.ReadExactly member where
  written := jwk.octets?_eq_some_iff member
  missing := by
    constructor
    · intro h
      have hreads := jwk.reads_octets? member
      rw [h] at hreads
      cases hreads with
      | missing hmissing => exact hmissing
    · intro h
      rw [octets?, h]
  tooLarge size := by
    constructor
    · intro h
      have hreads := jwk.reads_octets? member
      rw [h] at hreads
      cases hreads with
      | tooLarge hmember hsize => exact ⟨hsize, _, hmember, rfl⟩
    · rintro ⟨hsize, text, hmember, rfl⟩
      rw [octets?, hmember, textLimit_eq]
      exact if_pos hsize
  invalid := by
    have hreads := jwk.reads_octets? member
    generalize jwk.octets? member = result at hreads
    constructor
    · rintro ⟨fault, rfl⟩
      cases hreads with
      | invalid hpresent hsize hnone _ => exact ⟨hpresent, hnone, hsize⟩
    · rintro ⟨hpresent, hnone, hsize⟩
      cases hreads with
      | missing hmissing => exact absurd hmissing hpresent
      | written hwrites => exact absurd hwrites (hnone _)
      | tooLarge hmember hlong => exact absurd hlong (Nat.not_lt.mpr (hsize _ hmember))
      | invalid _ _ _ _ => exact ⟨_, rfl⟩
  refused cause h := by
    have hreads := jwk.reads_octets? member
    rw [h] at hreads
    cases hreads with
    | tooLarge _ _ => exact .inl ⟨_, rfl⟩
    | invalid _ _ _ hfault =>
        refine .inr ⟨_, rfl, fun length limit => ⟨?_, ?_⟩⟩
        · exact hfault.message_ne_base64 id
        · exact hfault.message_ne_base64 id

/-- The document is one for keyed hashing with the secret. -/
def TellsSecret (document : Json) (secret : Octets) : Prop :=
  ∃ jwk : Jwk, document = .object jwk.members ∧
    jwk.members.find? "kty" = some (.string "oct") ∧ jwk.Writes "k" secret

end Jwk

/-- For keyed hashing a document gives one key for both purposes. -/
theorem signingKey_symmetric_iff_verifyingKey (document : Json) (hash : Hash) (key : Key) :
    (signingKey document (.signing .symmetric hash)).run.value = .ok key ↔
      (verifyingKey document (.signing .symmetric hash)).run.value = .ok key := by
  rw [signingKey_eq_ok_iff, verifyingKey_eq_ok_iff]
  refine exists_congr fun jwk => exists_congr fun family => and_congr_right fun _ =>
    and_congr_right fun hfamily => and_congr_right fun _ => ?_
  cases hfamily
  exact ofExcept_eq_ok_iff jwk.symmetricKey key

theorem verifyingKey_eq_ok_iff_tellsSecret (document : Json) (hash : Hash) (key : Key) :
    (verifyingKey document (.signing .symmetric hash)).run.value = .ok key ↔
      ∃ secret, Jwk.TellsSecret document secret ∧ key = .symmetric secret := by
  rw [verifyingKey_symmetric_iff]
  constructor
  · rintro ⟨members, secret, hdocument, hkeyType, hmember, hpos, hlength, hkey⟩
    exact ⟨secret, ⟨⟨members⟩, hdocument, hkeyType, hmember, hpos, hlength⟩, hkey⟩
  · rintro ⟨secret, ⟨jwk, hdocument, hkeyType, hmember, hpos, hlength⟩, hkey⟩
    exact ⟨jwk.members, secret, hdocument, hkeyType, hmember, hpos, hlength, hkey⟩

/-- A member is read exactly: as the octets of which it is the written form, as missing only if it is not
there, as too large for the length of its text alone, and else as invalid, never for a limit of decoding.
Members of different texts never have one value. For keyed hashing there is a key exactly if the document
has the key type of a secret and its member writes one, and the key is this secret. -/
theorem members_read_exactly :
    (∀ (jwk : Jwk) (member : String), jwk.ReadExactly member) ∧
    (∀ (jwk other : Jwk) (member otherMember : String) (octets : Octets),
      jwk.octets? member = .ok (some octets) → other.octets? otherMember = .ok (some octets) →
        jwk.members.find? member = other.members.find? otherMember) ∧
    ∀ (document : Json) (hash : Hash) (key : Key),
      ((signingKey document (.signing .symmetric hash)).run.value = .ok key ↔
        ∃ secret, Jwk.TellsSecret document secret ∧ key = .symmetric secret) ∧
      ((verifyingKey document (.signing .symmetric hash)).run.value = .ok key ↔
        ∃ secret, Jwk.TellsSecret document secret ∧ key = .symmetric secret) := by
  refine ⟨Jwk.readExactly, fun jwk other member otherMember octets hread hother => ?_,
    fun document hash key => ⟨?_, verifyingKey_eq_ok_iff_tellsSecret document hash key⟩⟩
  · have hwrites := ((jwk.readExactly member).written octets).mp hread
    exact hwrites.find?_eq (((other.readExactly otherMember).written octets).mp hother)
  · rw [signingKey_symmetric_iff_verifyingKey]
    exact verifyingKey_eq_ok_iff_tellsSecret document hash key

/-- A document with a secret, a null member and an empty one. The first is read, and again in another
document; the others are there and invalid; and the key for signing is the secret. -/
theorem members_read_of_letters :
    ∃ jwk other : Jwk,
      jwk.members = [("kty", .string "oct"), ("k", .string "c2VjcmV0"), ("n", .null),
        ("e", .string "")] ∧
      other.members = [("d", .string "c2VjcmV0")] ∧
      jwk.octets? "k" = .ok (some [115, 101, 99, 114, 101, 116]) ∧
      other.octets? "d" = .ok (some [115, 101, 99, 114, 101, 116]) ∧
      jwk.members.find? "k" = other.members.find? "d" ∧
      jwk.octets? "d" = .ok none ∧
      (∃ fault, jwk.octets? "n" = .error (.memberInvalid "n" fault)) ∧
      jwk.octets? "e" = .error (.memberInvalid "e" .empty) ∧
      (∀ length limit, MemberFault.empty.message ≠
        (Error.base64 (.encodedTooLong length limit)).message) ∧
      (signingKey (.object jwk.members) (.signing .symmetric .sha256)).run.value =
        .ok (.symmetric [115, 101, 99, 114, 101, 116]) := by
  obtain ⟨hexactly, hunambiguous, hsecret⟩ := members_read_exactly
  let jwk : Jwk := ⟨[("kty", .string "oct"), ("k", .string "c2VjcmV0"), ("n", .null),
    ("e", .string "")]⟩
  let other : Jwk := ⟨[("d", .string "c2VjcmV0")]⟩
  have hwrites : jwk.Writes "k" [115, 101, 99, 114, 101, 116] := ⟨rfl, by decide, by decide⟩
  have hread := ((hexactly jwk "k").written _).mpr hwrites
  have hother := ((hexactly other "d").written [115, 101, 99, 114, 101, 116]).mpr
    ⟨rfl, by decide, by decide⟩
  have hinvalid : ∃ fault, jwk.octets? "n" = .error (.memberInvalid "n" fault) := by
    have hnull : jwk.members.find? "n" = some .null := rfl
    refine (hexactly jwk "n").invalid.mpr ⟨?_, fun octets hoctets => ?_, fun text htext => ?_⟩
    · rw [hnull]
      exact Option.some_ne_none _
    · cases hnull.symm.trans hoctets.1
    · cases hnull.symm.trans htext
  have hempty : jwk.octets? "e" = .error (.memberInvalid "e" .empty) := rfl
  refine ⟨jwk, other, rfl, rfl, hread, hother, hunambiguous _ _ _ _ _ hread hother,
    (hexactly jwk "d").missing.mpr rfl, hinvalid, hempty, fun length limit => ?_,
    (hsecret _ _ _).1.mpr ⟨_, ⟨jwk, rfl, rfl, hwrites⟩, rfl⟩⟩
  obtain ⟨_, hsize⟩ | ⟨fault, hfault, hmessage⟩ := (hexactly jwk "e").refused _ hempty
  · cases hsize
  · cases hfault
    exact (hmessage length limit).1

end WebToken
