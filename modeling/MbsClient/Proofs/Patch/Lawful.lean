import MbsClient.Patch.Record
import MbsClient.Proofs.Patch.Difference

/-!
# Lawful differences — the classes that carry patch correctness through the model

A type is lawful if its edits turn the document of any value into that of any other. A record is
lawful if its members have different names and each member keeps to its name; what is shown and
what is compared have to agree member by member, and nothing has to agree across members.
-/

namespace MbsClient

open Diff Json Number Patch

/-! ## 1. Values -/

/-- Types whose documents hold no NaN. -/
class SelfSame (α : Type) [Encode α] : Prop where
  same_self : ∀ a : α, (encode a == encode a) = true

export SelfSame (same_self)

/-- Types whose edits turn one document into the other. -/
class LawfulDiff (α : Type) [Encode α] [Diff α] : Prop extends SelfSame α where
  turns : ∀ old new : α, Turns (edits old new) (encode old) (encode new)

section

variable {α : Type} [Encode α]

instance [SelfSame α] : SelfSame (List α) where
  same_self as := by
    apply same_array
    rw [List.forall₂_same]
    intro d hd
    obtain ⟨a, -, rfl⟩ := List.mem_map.1 hd
    exact same_self a

instance [BEq α] [Diff α] [LawfulDiff α] : LawfulDiff (List α) where
  turns _ _ := turns_list same_self fun a _ b _ => LawfulDiff.turns a b

theorem name_injective_uint32 : Function.Injective (MapKey.name : UInt32 → String) := by
  intro k l h
  have hindex : index? (item k.toNat) = index? (item l.toNat) := congrArg index? h
  rw [index?_item, index?_item] at hindex
  exact UInt32.toNat_inj.1 (Option.some.inj hindex)

instance [SelfSame α] : SelfSame (SortedMap UInt32 α) where
  same_self m := by
    rw [encode_map_eq]
    apply same_object (sorted_mapEntries m) (sorted_mapEntries m)
    intro name
    by_cases hname : name ∈ m.keys.map MapKey.name
    · obtain ⟨k, -, rfl⟩ := List.mem_map.1 hname
      rw [get?_mapEntries name_injective_uint32]
      cases m.get? k with
      | none => exact .none
      | some a => exact .some (same_self a)
    · rw [get?_mapEntries_of_not_mem name_injective_uint32 hname]
      exact .none

-- A value without parts whose comparison is equality.
theorem turns_scalar_of_lawful [BEq α] [LawfulBEq α] [SelfSame α] (old new : α) :
    Turns (scalar old new) (encode old) (encode new) :=
  Turns.scalar same_self (fun a b h => by rw [eq_of_beq h]; exact same_self b) old new

end

theorem same_string (s : String) : (Json.string s == Json.string s) = true := beq_self_eq_true s

theorem same_int (n : Int) : (Json.int n == Json.int n) = true := beq_self_eq_true n

instance : SelfSame String := ⟨same_string⟩
instance : SelfSame UInt8 := ⟨fun n => same_int n.toNat⟩
instance : SelfSame UInt16 := ⟨fun n => same_int n.toNat⟩
instance : SelfSame UInt32 := ⟨fun n => same_int n.toNat⟩
instance : SelfSame Int32 := ⟨fun n => same_int n.toInt⟩
instance : SelfSame Double := ⟨Double.same_ofDouble_self⟩
instance : SelfSame Single := ⟨fun x => Double.same_ofDouble_self x.toDouble⟩
instance (priority := low) {α : Type} [Constant α] : SelfSame α :=
  ⟨fun a => same_string (Constant.name a)⟩

instance : LawfulDiff String := ⟨turns_scalar_of_lawful⟩
instance : LawfulDiff UInt8 := ⟨turns_scalar_of_lawful⟩
instance : LawfulDiff UInt16 := ⟨turns_scalar_of_lawful⟩
instance : LawfulDiff UInt32 := ⟨turns_scalar_of_lawful⟩
instance : LawfulDiff Int32 := ⟨turns_scalar_of_lawful⟩
instance : LawfulDiff Double := ⟨Turns.scalar same_self fun _ _ => Double.same_ofDouble⟩
instance : LawfulDiff Single := ⟨Turns.scalar same_self fun _ _ => Single.same_toDouble⟩

instance (priority := low) {α : Type} [Constant α] [BEq α] [LawfulBEq α] : LawfulDiff α :=
  ⟨turns_scalar_of_lawful⟩

/-! ## 2. Members -/

-- The document of different members is the same as itself if each value is.
theorem same_record {members : List (String × Option Json)} (hn : (members.map Prod.fst).Nodup)
    (h : ∀ e ∈ members, SameOption e.2 e.2) :
    (Json.record members == Json.record members) = true := by
  rw [record_eq]
  apply same_object (sorted_recordEntries _) (sorted_recordEntries _)
  intro name
  by_cases hname : name ∈ members.map Prod.fst
  · obtain ⟨⟨name, v⟩, hv, rfl⟩ := List.mem_map.1 hname
    rw [get?_recordEntries hn hv]
    exact h _ hv
  · rw [get?_recordEntries_of_not_mem hname]
    exact .none

namespace Member

variable {R α : Type} [Encode α]

/-- What the member shows holds no NaN, and its edits put what the new record shows where what the
old one shows was. -/
structure Lawful (m : Member R) : Prop where
  same_shown : ∀ r, SameOption (m.shown r) (m.shown r)
  fills : ∀ old new, Fills m.name (m.shown old) (m.shown new) (m.edits old new)

theorem same_map [SelfSame α] (v : Option α) : SameOption (v.map encode) (v.map encode) := by
  cases v with
  | none => exact .none
  | some a => exact .some (same_self a)

-- Where both records show a member or both hide it, it is enough that its values agree.
theorem same_shown_hidden [Diff α] (name : String) {visible : R → Bool} {get : R → Option α}
    {old new : R} (hvisible : visible old = visible new)
    (hget : SameOption ((get old).map encode) ((get new).map encode)) :
    SameOption ((hidden name visible get).shown old) ((hidden name visible get).shown new) := by
  simp only [hidden]
  rw [hvisible]
  split
  · exact hget
  · exact .none

theorem same_hidden [SelfSame α] [Diff α] (name : String) (visible : R → Bool)
    (get : R → Option α) (r : R) :
    SameOption ((hidden name visible get).shown r) ((hidden name visible get).shown r) :=
  same_shown_hidden name rfl (same_map (get r))

@[simp] theorem lawful_always [Diff α] [LawfulDiff α] (name : String) (get : R → α) :
    (always name get).Lawful where
  same_shown r := .some (same_self (get r))
  fills old new := Fills.under (LawfulDiff.turns (get old) (get new))

theorem fills_optional [SelfSame α] [Diff α] (name : String) {get : R → Option α} {old new : R}
    (h : ∀ a b, get old = some a → get new = some b →
      Turns (Diff.edits a b) (encode a) (encode b)) :
    Fills name ((optional name get).shown old) ((optional name get).shown new)
      ((optional name get).edits old new) :=
  Fills.presence same_self h

@[simp] theorem lawful_optional [Diff α] [LawfulDiff α] (name : String) (get : R → Option α) :
    (optional name get).Lawful where
  same_shown r := same_map (get r)
  fills _ _ := fills_optional name fun a b _ _ => LawfulDiff.turns a b

-- A value that is shown wherever there is one.
theorem fills_hidden [SelfSame α] [Diff α] (name : String) {visible : R → Bool}
    {get : R → Option α} {old new : R} (hold : (get old).isSome = true → visible old = true)
    (hnew : (get new).isSome = true → visible new = true)
    (h : ∀ a b, get old = some a → get new = some b →
      Turns (Diff.edits a b) (encode a) (encode b)) :
    Fills name ((hidden name visible get).shown old) ((hidden name visible get).shown new)
      ((hidden name visible get).edits old new) := by
  have hshown : ∀ r, ((get r).isSome = true → visible r = true) →
      (hidden name visible get).shown r = (get r).map encode := by
    intro r hr
    simp only [hidden]
    cases hget : get r with
    | none => simp
    | some a => simp [hr (by rw [hget]; rfl)]
  rw [hshown old hold, hshown new hnew]
  exact Fills.presence same_self h

@[simp] theorem lawful_flag (name : String) (get : R → Bool) : (flag name get).Lawful where
  same_shown r := by
    simp only [flag]
    split
    · exact .some rfl
    · exact .none
  fills old new := by
    simp only [flag]
    cases get old <;> cases get new
    · exact Fills.nil .none
    · exact Fills.add rfl
    · exact Fills.remove
    · exact Fills.nil (.some rfl)

@[simp] theorem lawful_sequence [BEq α] [Diff α] [LawfulDiff α] (name : String) (get : R → List α) :
    (sequence name get).Lawful where
  same_shown r := by
    simp only [sequence]
    split
    · exact .none
    · exact .some (same_self (get r))
  fills old new := by
    simp only [sequence]
    cases get old with
    | nil =>
      cases get new with
      | nil => exact Fills.nil .none
      | cons b bs => exact Fills.add (same_self (b :: bs))
    | cons a as =>
      cases get new with
      | nil => exact Fills.remove
      | cons b bs => exact Fills.under (LawfulDiff.turns (a :: as) (b :: bs))

/-! ## 3. Records -/

theorem names_document (members : List (Member R)) (r : R) :
    (document members r).map Prod.fst = members.map name := by
  simp [document]

/-! The members of a record may stand in its document beside others that do not depend on it. -/

section

variable {members : List (Member R)} {more : List (String × Option Json)}

theorem get?_document (hn : (more.map Prod.fst ++ members.map name).Nodup) (r : R) {m : Member R}
    (hm : m ∈ members) :
    Entries.get? m.name (recordEntries (more ++ document members r)) = m.shown r := by
  apply get?_recordEntries
  · rw [List.map_append, names_document]
    exact hn
  · exact List.mem_append_right _ (List.mem_map.2 ⟨m, hm, rfl⟩)

theorem same_others (hn : (more.map Prod.fst ++ members.map name).Nodup)
    (hmore : ∀ e ∈ more, SameOption e.2 e.2) (old new : R) {other : String}
    (hother : other ∉ members.map name) :
    SameOption (Entries.get? other (recordEntries (more ++ document members old)))
      (Entries.get? other (recordEntries (more ++ document members new))) := by
  have hnodup : ∀ r, ((more ++ document members r).map Prod.fst).Nodup := by
    intro r
    rw [List.map_append, names_document]
    exact hn
  by_cases hmem : other ∈ more.map Prod.fst
  · obtain ⟨⟨other, v⟩, hv, rfl⟩ := List.mem_map.1 hmem
    rw [get?_recordEntries (hnodup old) (List.mem_append_left _ hv),
      get?_recordEntries (hnodup new) (List.mem_append_left _ hv)]
    exact hmore _ hv
  · have hnone : ∀ r, other ∉ (more ++ document members r).map Prod.fst := by
      intro r
      rw [List.map_append, names_document, List.mem_append, not_or]
      exact ⟨hmem, hother⟩
    rw [get?_recordEntries_of_not_mem (hnone old), get?_recordEntries_of_not_mem (hnone new)]
    exact .none

end

-- The edits of all members, on a document that may have more members than the edits are about.
theorem turns_differences {members : List (Member R)} (more : List (String × Option Json))
    (hn : (more.map Prod.fst ++ members.map name).Nodup) (hmore : ∀ e ∈ more, SameOption e.2 e.2)
    {old new : R}
    (h : ∀ m ∈ members, Fills m.name (m.shown old) (m.shown new) (m.edits old new)) :
    Turns (differences members old new) (.record (more ++ document members old))
      (.record (more ++ document members new)) := by
  rw [record_eq, record_eq, differences]
  exact Fills.turns name (List.nodup_append.1 hn).2.1 h (sorted_recordEntries _)
    (sorted_recordEntries _) (fun _ => get?_document hn old) (fun _ => get?_document hn new)
    fun _ => same_others hn hmore old new

-- Edits by members have paths of their own as pointer text.
theorem path_ne_root {members : List (Member R)} (hname : "" ∉ members.map name) {old new : R}
    (h : ∀ m ∈ members, Fills m.name (m.shown old) (m.shown new) (m.edits old new)) {e : Edit}
    (he : e ∈ differences members old new) : e.path ≠ [""] := by
  obtain ⟨m, hm, hem⟩ := List.mem_flatMap.1 he
  obtain ⟨path, hpath⟩ := (h m hm).inside e hem
  rw [hpath]
  intro hroot
  rw [(List.cons.inj hroot).1.symm] at hname
  exact hname (List.mem_map_of_mem hm)

theorem same_document {members : List (Member R)} (hn : (members.map name).Nodup) {r : R}
    (h : ∀ m ∈ members, SameOption (m.shown r) (m.shown r)) :
    (Json.record (document members r) == Json.record (document members r)) = true := by
  apply same_record
  · rw [names_document]
    exact hn
  · intro e he
    obtain ⟨m, hm, rfl⟩ := List.mem_map.1 he
    exact h m hm

end Member

/-- Records whose members have different names and are lawful. -/
class LawfulRecord (R : Type) [Record R] : Prop where
  nodup_names : ((Record.members : List (Member R)).map Member.name).Nodup
  lawful : ∀ m ∈ (Record.members : List (Member R)), m.Lawful

instance (priority := low) {R : Type} [Record R] [LawfulRecord R] : LawfulDiff R where
  same_self _ :=
    Member.same_document LawfulRecord.nodup_names fun m hm =>
      (LawfulRecord.lawful m hm).same_shown _
  turns old new :=
    Member.turns_differences [] LawfulRecord.nodup_names (by simp)
      fun m hm => (LawfulRecord.lawful m hm).fills old new

end MbsClient
