import MbsClient.Proofs.Patch.Lawful
import MbsClient.Proofs.Patch.Unchanged

/-!
# Empty differences — there are no edits exactly between values of the same document

`Tells` says this of two values, `Member.Tells` of one member of two records. As with what makes
patches correct, nothing has to agree across members.
-/

namespace MbsClient

open Diff Json Patch

namespace Diff

@[simp] theorem under_eq_nil {segment : String} {es : List Edit} :
    under segment es = [] ↔ es = [] :=
  List.map_eq_nil_iff

section

variable {α : Type} [Encode α]

/-- There are no edits from one value to the other exactly if their documents are the same. -/
def Tells [Diff α] (a b : α) : Prop := edits a b = [] ↔ (encode a == encode b) = true

/-- Types of which any two values are told apart by edits as by documents. -/
class Telling (α : Type) [Encode α] [Diff α] : Prop where
  tells : ∀ a b : α, Tells a b

theorem scalar_eq_nil [BEq α] {a b : α} : scalar a b = [] ↔ (a == b) = true := by
  unfold scalar
  split <;> simp_all

-- Where edits depend on more than the documents, `P` is what has to be added.
theorem presence_eq_nil_iff [Diff α] {P : α → α → Prop} {a? b? : Option α}
    (h : ∀ a ∈ a?, ∀ b ∈ b?, edits a b = [] ↔ (encode a == encode b) = true ∧ P a b) :
    presence a? b? = [] ↔
      SameOption (a?.map encode) (b?.map encode) ∧ ∀ a ∈ a?, ∀ b ∈ b?, P a b := by
  cases a? with
  | none =>
    cases b? with
    | none => exact iff_of_true rfl ⟨.none, by simp⟩
    | some b => exact iff_of_false (by simp [presence]) (fun hs => by cases hs.1)
  | some a =>
    cases b? with
    | none => exact iff_of_false (by simp [presence]) (fun hs => by cases hs.1)
    | some b => exact (h a rfl b rfl).trans (and_congr same_some_iff.symm (by simp))

theorem presence_eq_nil [Diff α] {a? b? : Option α} (h : ∀ a ∈ a?, ∀ b ∈ b?, Tells a b) :
    presence a? b? = [] ↔ SameOption (a?.map encode) (b?.map encode) := by
  rw [presence_eq_nil_iff (P := fun _ _ => True) fun a ha b hb => (h a ha b hb).trans (by simp)]
  simp

-- Items are dropped or added only where the lists differ in length.
theorem list_eq_nil [BEq α] [Diff α] {cursor : Nat} {as bs : List α} :
    list cursor as bs = [] ↔ List.Forall₂ (fun a b => edits a b = []) as bs := by
  induction cursor, as, bs using list.induct with
  | case1 cursor new =>
    rw [list, List.map_eq_nil_iff, List.forall₂_nil_left_iff]
  | case2 cursor a old =>
    rw [list]
    simp
  | case3 cursor a old b new hdrop ih =>
    rw [list, if_pos hdrop]
    refine iff_of_false (List.cons_ne_nil _ _) fun hsame => ?_
    have hlength := hsame.length_eq
    simp only [Bool.and_eq_true, decide_eq_true_eq, List.length_cons] at hdrop hlength
    omega
  | case4 cursor a old b new hpair ih =>
    rw [list, if_neg hpair, List.append_eq_nil_iff, under_eq_nil, ih, List.forall₂_cons]

theorem tells_list [BEq α] [Diff α] {as bs : List α} (h : ∀ a ∈ as, ∀ b ∈ bs, Tells a b) :
    Tells as bs := by
  show list 0 as bs = [] ↔ (Json.array (as.map encode) == Json.array (bs.map encode)) = true
  rw [list_eq_nil, same_array_iff, List.forall₂_map_left_iff, List.forall₂_map_right_iff]
  induction as generalizing bs with
  | nil => simp
  | cons a as ih =>
    cases bs with
    | nil => simp
    | cons b bs =>
      have hhead : edits a b = [] ↔ (encode a == encode b) = true :=
        h a List.mem_cons_self b List.mem_cons_self
      rw [List.forall₂_cons, List.forall₂_cons, hhead,
        ih fun a' ha' b' hb' => h a' (List.mem_cons_of_mem _ ha') b' (List.mem_cons_of_mem _ hb')]

instance [BEq α] [Diff α] [Telling α] : Telling (List α) :=
  ⟨fun _ _ => tells_list fun a _ b _ => Telling.tells a b⟩

/-- Types of which any two different values have edits between them. -/
class Separating (α : Type) [Diff α] : Prop where
  edits_eq_nil : ∀ a b : α, edits a b = [] ↔ a = b

attribute [simp] Separating.edits_eq_nil

theorem scalar_eq_nil_iff_eq [BEq α] [LawfulBEq α] (a b : α) : scalar a b = [] ↔ a = b :=
  scalar_eq_nil.trans beq_iff_eq

@[simp] theorem presence_eq_nil_iff_eq [Diff α] [Separating α] (a? b? : Option α) :
    presence a? b? = [] ↔ a? = b? := by
  cases a? <;> cases b? <;> simp [presence]

@[simp] theorem list_eq_nil_iff_eq [BEq α] [Diff α] [Separating α] (cursor : Nat) (as bs : List α) :
    list cursor as bs = [] ↔ as = bs := by
  rw [list_eq_nil]
  simp only [Separating.edits_eq_nil, List.forall₂_eq_eq_eq]

variable {κ : Type} [MapKey κ]

theorem map_eq_nil [Diff α] {old new : SortedMap κ α} :
    map old new = [] ↔ ∀ k, presence (old.get? k) (new.get? k) = [] := by
  rw [map, List.flatMap_eq_nil_iff]
  simp only [under_eq_nil]
  refine ⟨fun h k => ?_, fun h k _ => h k⟩
  by_cases hk : k ∈ eitherKeys old new
  · exact h k hk
  · rw [mem_eitherKeys, not_or, ← SortedMap.isSome_get?, ← SortedMap.isSome_get?,
      Option.not_isSome_iff_eq_none, Option.not_isSome_iff_eq_none] at hk
    rw [hk.1, hk.2]
    rfl

theorem same_map_iff (hname : Function.Injective (MapKey.name : κ → String))
    {old new : SortedMap κ α} :
    (encode old == encode new) = true ↔
      ∀ k, SameOption ((old.get? k).map encode) ((new.get? k).map encode) := by
  rw [encode_map_eq, encode_map_eq,
    same_object_iff (sorted_mapEntries old) (sorted_mapEntries new)]
  refine ⟨fun h k => ?_, fun h name => ?_⟩
  · have hk := h (MapKey.name k)
    rwa [get?_mapEntries hname, get?_mapEntries hname] at hk
  · by_cases hkey : ∃ k : κ, MapKey.name k = name
    · obtain ⟨k, rfl⟩ := hkey
      rw [get?_mapEntries hname, get?_mapEntries hname]
      exact h k
    · have hnone : ∀ m : SortedMap κ α, Entries.get? name (mapEntries m) = none := by
        intro m
        apply get?_mapEntries_of_not_mem hname
        intro hmem
        obtain ⟨k, -, hk⟩ := List.mem_map.1 hmem
        exact hkey ⟨k, hk⟩
      rw [hnone, hnone]
      exact .none

end

end Diff

namespace Member

open Diff

variable {R α : Type} [Encode α]

/-- The member has no edits exactly if both records show the same under its name. -/
def Tells (m : Member R) (old new : R) : Prop :=
  m.edits old new = [] ↔ SameOption (m.shown old) (m.shown new)

theorem tells_always_of [Diff α] (name : String) {get : R → α} {old new : R}
    (h : Diff.Tells (get old) (get new)) : (always name get).Tells old new :=
  under_eq_nil.trans (h.trans same_some_iff.symm)

theorem tells_optional_of [Diff α] (name : String) {get : R → Option α} {old new : R}
    (h : ∀ a ∈ get old, ∀ b ∈ get new, Diff.Tells a b) : (optional name get).Tells old new :=
  under_eq_nil.trans (presence_eq_nil h)

theorem tells_sequence_of [BEq α] [Diff α] (name : String) {get : R → List α} {old new : R}
    (h : ∀ a ∈ get old, ∀ b ∈ get new, Diff.Tells a b) : (sequence name get).Tells old new := by
  unfold Tells sequence
  dsimp only
  generalize get old = as, get new = bs at h
  cases as with
  | nil =>
    cases bs with
    | nil => exact iff_of_true rfl .none
    | cons b bs => exact iff_of_false (by simp) (fun hs => by cases hs)
  | cons a as =>
    cases bs with
    | nil => exact iff_of_false (by simp) (fun hs => by cases hs)
    | cons b bs => exact under_eq_nil.trans ((tells_list h).trans same_some_iff.symm)

@[simp] theorem tells_always [Diff α] [Telling α] (name : String) (get : R → α) (old new : R) :
    (always name get).Tells old new :=
  tells_always_of name (Telling.tells _ _)

@[simp] theorem tells_optional [Diff α] [Telling α] (name : String) (get : R → Option α)
    (old new : R) : (optional name get).Tells old new :=
  tells_optional_of name fun a _ b _ => Telling.tells a b

@[simp] theorem tells_sequence [BEq α] [Diff α] [Telling α] (name : String) (get : R → List α)
    (old new : R) : (sequence name get).Tells old new :=
  tells_sequence_of name fun a _ b _ => Telling.tells a b

@[simp] theorem tells_flag (name : String) (get : R → Bool) (old new : R) :
    (flag name get).Tells old new := by
  unfold Tells flag
  dsimp only
  cases get old <;> cases get new
  · exact iff_of_true rfl .none
  · exact iff_of_false (by simp) (fun hs => by cases hs)
  · exact iff_of_false (by simp) (fun hs => by cases hs)
  · exact iff_of_true rfl (.some rfl)

theorem edits_hidden_eq_nil [Diff α] [Telling α] (name : String) (visible : R → Bool)
    (get : R → Option α) (old new : R) :
    (hidden name visible get).edits old new = [] ↔
      SameOption ((get old).map encode) ((get new).map encode) :=
  under_eq_nil.trans (presence_eq_nil fun a _ b _ => Telling.tells a b)

@[simp] theorem edits_always_eq_nil [Diff α] [Separating α] (name : String) (get : R → α)
    (old new : R) : (always name get).edits old new = [] ↔ get old = get new :=
  under_eq_nil.trans (Separating.edits_eq_nil _ _)

@[simp] theorem edits_optional_eq_nil [Diff α] [Separating α] (name : String)
    (get : R → Option α) (old new : R) :
    (optional name get).edits old new = [] ↔ get old = get new :=
  under_eq_nil.trans (presence_eq_nil_iff_eq _ _)

theorem edits_sequence_eq_nil [BEq α] [Diff α] [Separating α] (name : String) (get : R → List α)
    (old new : R) : (sequence name get).edits old new = [] ↔ get old = get new := by
  unfold sequence
  dsimp only
  cases get old <;> cases get new
  · simp
  · simp
  · simp
  · exact under_eq_nil.trans (list_eq_nil_iff_eq _ _ _)

theorem differences_eq_nil {members : List (Member R)} {old new : R} :
    differences members old new = [] ↔ ∀ m ∈ members, m.edits old new = [] :=
  List.flatMap_eq_nil_iff

-- Documents of different members are the same exactly if each member shows the same.
theorem same_record_iff (more : List (String × Option Json)) {members : List (Member R)}
    (hn : (more.map Prod.fst ++ members.map name).Nodup) (hmore : ∀ e ∈ more, SameOption e.2 e.2)
    {old new : R} :
    (Json.record (more ++ document members old) == Json.record (more ++ document members new)) =
        true ↔
      ∀ m ∈ members, SameOption (m.shown old) (m.shown new) := by
  rw [record_eq, record_eq, same_object_iff (sorted_recordEntries _) (sorted_recordEntries _)]
  constructor
  · intro h m hm
    have hname := h m.name
    rwa [get?_document hn old hm, get?_document hn new hm] at hname
  · intro h other
    by_cases hother : other ∈ members.map name
    · obtain ⟨m, hm, rfl⟩ := List.mem_map.1 hother
      rw [get?_document hn old hm, get?_document hn new hm]
      exact h m hm
    · exact same_others hn hmore old new hother

theorem edits_eq_nil_iff [Record R] {old new : R} :
    Diff.edits old new = [] ↔ ∀ m ∈ (Record.members : List (Member R)), m.edits old new = [] :=
  differences_eq_nil

theorem same_encode_iff [Record R] (hn : ((Record.members : List (Member R)).map name).Nodup)
    {old new : R} :
    (encode old == encode new) = true ↔
      ∀ m ∈ (Record.members : List (Member R)), SameOption (m.shown old) (m.shown new) :=
  same_record_iff [] hn (by simp)

-- Records with one member of which the edits depend on more than what is shown: `P` is added.
theorem edits_eq_nil_iff_of [Record R] (hn : ((Record.members : List (Member R)).map name).Nodup)
    {m₀ : Member R} (hmem : m₀ ∈ Record.members) {P : Prop} {old new : R}
    (hm₀ : m₀.edits old new = [] ↔ SameOption (m₀.shown old) (m₀.shown new) ∧ P)
    (hothers : ∀ m ∈ (Record.members : List (Member R)), m.name = m₀.name ∨ m.Tells old new) :
    Diff.edits old new = [] ↔ (encode old == encode new) = true ∧ P := by
  rw [edits_eq_nil_iff, same_encode_iff hn]
  constructor
  · intro h
    refine ⟨fun m hm => ?_, (hm₀.1 (h m₀ hmem)).2⟩
    rcases hothers m hm with hname | htells
    · rw [List.inj_on_of_nodup_map hn hm hmem hname]
      exact (hm₀.1 (h m₀ hmem)).1
    · exact htells.1 (h m hm)
  · rintro ⟨h, hP⟩ m hm
    rcases hothers m hm with hname | htells
    · rw [List.inj_on_of_nodup_map hn hm hmem hname]
      exact hm₀.2 ⟨h m₀ hmem, hP⟩
    · exact htells.2 (h m hm)

theorem tells_differences (more : List (String × Option Json)) {members : List (Member R)}
    (hn : (more.map Prod.fst ++ members.map name).Nodup) (hmore : ∀ e ∈ more, SameOption e.2 e.2)
    {old new : R} (h : ∀ m ∈ members, m.Tells old new) :
    differences members old new = [] ↔
      (Json.record (more ++ document members old) ==
        Json.record (more ++ document members new)) = true := by
  rw [differences_eq_nil, same_record_iff more hn hmore]
  exact forall₂_congr h

theorem tells_record [Record R] [LawfulRecord R] {old new : R}
    (h : ∀ m ∈ (Record.members : List (Member R)), m.Tells old new) : Diff.Tells old new :=
  tells_differences [] LawfulRecord.nodup_names (by simp) h

end Member

/-- Records of which every member tells any two records apart. -/
class TellingRecord (R : Type) [Record R] : Prop where
  tells : ∀ m ∈ (Record.members : List (Member R)), ∀ old new, m.Tells old new

instance (priority := low) {R : Type} [Record R] [LawfulRecord R] [TellingRecord R] :
    Diff.Telling R :=
  ⟨fun old new => Member.tells_record fun m hm => TellingRecord.tells m hm old new⟩

end MbsClient
