import WebToken.Json.Parser
import WebToken.Proofs.Action
import WebToken.Proofs.Json.Shape

/-! Whatever text is read, the containers of its value nest no deeper than the reader follows them, and
its objects have one member for each name. -/

namespace WebToken.Json

/-- What may be read where containers may nest so deep. -/
structure Readable (depth : Nat) (value : Json) : Prop where
  depth_le : value.depth ≤ depth
  unique : Every NamesUnique value

theorem readable_scalar {depth : Nat} {value : Json} (hdepth : value.depth = 0)
    (hunique : Every NamesUnique value) : Readable depth value :=
  ⟨Nat.le_trans (Nat.le_of_eq hdepth) (Nat.zero_le _), hunique⟩

theorem readable_array {depth : Nat} {items : List Json} (h : ∀ item ∈ items, Readable depth item) :
    Readable (depth + 1) (.array items) :=
  ⟨Nat.succ_le_succ (depthOfItems_le_iff.mpr fun item hitem => (h item hitem).depth_le),
    .intro trivial fun item hitem => (h item hitem).unique⟩

theorem readable_object_iff {depth : Nat} {members : Members} :
    Readable (depth + 1) (.object members) ↔
      members.names.Nodup ∧ ∀ member ∈ members, Readable depth member.2 := by
  constructor
  · rintro ⟨hdepth, hunique⟩
    obtain ⟨hnames, hvalues⟩ := (every_object_iff _).mp hunique
    have hinside := depthOfMembers_le_iff.mp (Nat.le_of_succ_le_succ hdepth)
    exact ⟨hnames, fun member hmember => ⟨hinside member hmember, hvalues member hmember⟩⟩
  · rintro ⟨hnames, hvalues⟩
    have hdepth : depthOfMembers members ≤ depth :=
      depthOfMembers_le_iff.mpr fun member hmember => (hvalues member hmember).depth_le
    exact ⟨Nat.succ_le_succ hdepth,
      (every_object_iff _).mpr ⟨hnames, fun member hmember => (hvalues member hmember).unique⟩⟩

theorem Readable.insert {depth : Nat} {members : Members}
    (h : Readable (depth + 1) (.object members)) (name : String) {value : Json}
    (hvalue : Readable depth value) :
    Readable (depth + 1) (.object (members.insert name value)) := by
  rw [readable_object_iff] at h ⊢
  refine ⟨Members.nodup_names_insert h.1 _ _, fun member hmember => ?_⟩
  rcases Members.mem_insert hmember with rfl | hmember
  · exact hvalue
  · exact h.2 member hmember

theorem Readable.erase {depth : Nat} {members : Members}
    (h : Readable (depth + 1) (.object members)) (name : String) :
    Readable (depth + 1) (.object (members.erase name)) := by
  rw [readable_object_iff] at h ⊢
  exact ⟨Members.nodup_names_erase h.1 name,
    fun member hmember => h.2 member (List.mem_filter.mp hmember).1⟩

/-- All values that the reader gives may be read. -/
def Yields (depth : Nat) (read : Cursor → Except Stop (Json × Cursor)) : Prop :=
  ∀ cursor value after, read cursor = .ok (value, after) → Readable depth value

theorem eq_of_readWord {value result : Json} {letters rest : List Char} {offset : Nat}
    {after : Cursor} (h : readWord value letters rest offset = .ok (result, after)) :
    result = value := by
  induction letters generalizing rest offset with
  | nil =>
      cases h
      rfl
  | cons letter letters ih =>
      cases rest with
      | nil => cases h
      | cons char rest =>
          rw [readWord] at h
          split at h
          · exact ih h
          · cases h

section

variable {depth : Nat} {readItem : Cursor → Except Stop (Json × Cursor)}
  (hread : Yields depth readItem)
include hread

theorem readable_of_readItems {rounds : Nat} {done : List Json} {cursor after : Cursor}
    {value : Json} (hdone : ∀ item ∈ done, Readable depth item)
    (h : readItems readItem rounds done cursor = .ok (value, after)) :
    Readable (depth + 1) value := by
  induction rounds generalizing done cursor with
  | zero => cases h
  | succ rounds ih =>
      rw [readItems] at h
      dsimp only at h
      split at h
      · cases h
      · cases h
        exact readable_array fun item hitem => hdone item (List.mem_reverse.mp hitem)
      · split at h
        · cases h
        · cases h
        · obtain ⟨⟨item, next⟩, hitem, hrest⟩ := bind_eq_ok_iff.mp h
          exact ih (List.forall_mem_cons.mpr ⟨hread _ _ _ hitem, hdone⟩) hrest
      · cases h

theorem readable_of_readList {rounds : Nat} {cursor after : Cursor} {value : Json}
    (h : readList readItem rounds cursor = .ok (value, after)) : Readable (depth + 1) value := by
  rw [readList] at h
  dsimp only at h
  split at h
  · cases h
  · cases h
    exact readable_array fun item hitem => nomatch hitem
  · obtain ⟨⟨item, next⟩, hitem, hrest⟩ := bind_eq_ok_iff.mp h
    refine readable_of_readItems hread (fun other hother => ?_) hrest
    obtain rfl := List.mem_singleton.mp hother
    exact hread _ _ _ hitem

theorem readable_of_readMember {rounds : Nat} {cursor after : Cursor}
    {member : String × Json} (h : readMember readItem rounds cursor = .ok (member, after)) :
    Readable depth member.2 := by
  rw [readMember] at h
  obtain ⟨⟨name, next⟩, _, h⟩ := bind_eq_ok_iff.mp h
  dsimp only at h
  split at h
  · obtain ⟨⟨value, last⟩, hvalue, h⟩ := bind_eq_ok_iff.mp h
    cases h
    exact hread _ _ _ hvalue
  · cases h
  · cases h

theorem readable_of_readMembers {limit rounds : Nat} {done : Members}
    {cursor after : Cursor} {value : Json} (hdone : Readable (depth + 1) (.object done))
    (h : readMembers readItem limit rounds done cursor = .ok (value, after)) :
    Readable (depth + 1) value := by
  induction rounds generalizing done cursor with
  | zero => cases h
  | succ rounds ih =>
      rw [readMembers] at h
      dsimp only at h
      split at h
      · cases h
      · cases h
        exact hdone
      · split at h
        · cases h
        · cases h
        · obtain ⟨⟨member, next⟩, hmember, hrest⟩ := bind_eq_ok_iff.mp h
          exact ih (hdone.insert _ (readable_of_readMember hread hmember)) hrest
        · cases h
      · cases h

theorem readable_of_readObject {rounds : Nat} {cursor after : Cursor} {value : Json}
    (h : readObject readItem rounds cursor = .ok (value, after)) : Readable (depth + 1) value := by
  have hempty : Readable (depth + 1) (.object []) :=
    readable_object_iff.mpr ⟨List.nodup_nil, fun _ hmember => nomatch hmember⟩
  rw [readObject] at h
  dsimp only at h
  split at h
  · cases h
  · cases h
    exact hempty
  · obtain ⟨⟨member, next⟩, hmember, hrest⟩ := bind_eq_ok_iff.mp h
    exact readable_of_readMembers hread
      (hempty.insert member.1 (readable_of_readMember hread hmember)) hrest
  · cases h

end

theorem yields_readValue (rounds depth : Nat) : Yields depth (readValue rounds depth) := by
  induction depth using Nat.strongRecOn with
  | ind depth ih =>
      intro cursor value after h
      rw [readValue] at h
      dsimp only at h
      split at h
      · cases h
      · obtain rfl := eq_of_readWord h
        exact readable_scalar rfl (every_scalar rfl trivial)
      · obtain rfl := eq_of_readWord h
        exact readable_scalar rfl (every_scalar rfl trivial)
      · obtain rfl := eq_of_readWord h
        exact readable_scalar rfl (every_scalar rfl trivial)
      · obtain ⟨⟨text, next⟩, _, h⟩ := bind_eq_ok_iff.mp h
        cases h
        exact readable_scalar rfl (every_scalar rfl trivial)
      · split at h
        · cases h
        · exact readable_of_readList (ih _ (Nat.lt_succ_self _)) h
      · split at h
        · cases h
        · exact readable_of_readObject (ih _ (Nat.lt_succ_self _)) h
      · split at h
        · obtain ⟨⟨number, next⟩, _, h⟩ := bind_eq_ok_iff.mp h
          cases h
          exact readable_scalar rfl (every_scalar rfl trivial)
        · cases h

/-- What a text is read as is not too deep, and names are unique at every depth of it. -/
theorem readable_of_parse {text : String} {value : Json} (h : parse text = .ok value) :
    Readable depthLimit value := by
  rw [parse] at h
  split at h
  · rename_i found htext
    cases h
    rw [readText] at htext
    obtain ⟨⟨value, next⟩, hvalue, htext⟩ := bind_eq_ok_iff.mp htext
    dsimp only at htext
    split at htext
    · cases htext
      exact yields_readValue _ _ _ _ _ hvalue
    · cases htext
  · cases h

end WebToken.Json
