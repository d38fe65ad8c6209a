import Mathlib.Data.List.Forall2
import MbsClient.Patch.Walk
import MbsClient.Proofs.Patch.Keyed

/-!
# Walks are balanced — what is recorded does not depend on where the cursor is

A routine `Places` steps if it leaves the cursor where it was and records these steps relative to
it, wherever the cursor is and whatever is recorded already. Every operation of a recorder does, and
so does what is put together from such routines. Walks through two objects place what `edits` lists
(`Follows`); walks through one object may place less.
-/

namespace MbsClient

open Number Patch

/-! ## 1. Pointers of relocated steps -/

namespace Patch

namespace Pointer

theorem text_append {path path' : List String} (h : path ≠ []) (h' : path' ≠ []) :
    text (path ++ path') = text path ++ text path' := by
  rw [text.eq_2 _ (by simp [h]), text.eq_2 _ h, text.eq_2 _ h', List.flatMap_append,
    String.ofList_append]

end Pointer

/-- The step on a document that lies at `path` of a larger one: the pointer of the path comes in
front of that of the step, and is all there is of it for a step on the whole document. -/
def Operation.relocate (path : List String) (op : Operation) : Operation :=
  { op with
    path :=
      if op.isRoot then Pointer.text path
      else if path = [] then op.path
      else Pointer.text path ++ op.path }

-- The single empty segment is left out, since its pointer is that of the whole document.
theorem Operation.ofEdit_relocate {e : Edit} (h : e.path ≠ [""]) (path : List String) :
    ofEdit (e.relocate path) = (ofEdit e).relocate path := by
  by_cases hnil : e.path = []
  · simp [ofEdit, relocate, Edit.relocate, isRoot, hnil, Pointer.text]
  · have hroot : (ofEdit e).isRoot = false := by
      refine decide_eq_false fun htext => ?_
      have hread := Pointer.parse?_text h
      rw [show Pointer.text e.path = "/" from htext] at hread
      exact hnil (Option.some.inj hread).symm
    by_cases hpath : path = []
    · rw [relocate, hroot, hpath]
      rfl
    · rw [relocate, hroot, if_neg Bool.false_ne_true, if_neg hpath]
      simp [ofEdit, Edit.relocate, Pointer.text_append hpath hnil]

end Patch

namespace Walk

/-! ## 2. What routines place -/

/-- The routine records the steps relative to the cursor and leaves the cursor where it was. None of
the steps is on the single empty segment. -/
structure Places (f : Recorder → Recorder) (es : List Edit) : Prop where
  eq_note : ∀ r, f r = r.note es
  path_ne : ∀ e ∈ es, e.path ≠ [""]

namespace Places

theorem nothing : Places (fun r => r) [] := ⟨fun r => by simp [Recorder.note], by simp⟩

theorem put (kind : Kind) (value : Option Json) :
    Places (·.put kind value) [⟨kind, [], value⟩] where
  eq_note r := by simp [Recorder.put, Recorder.note, Edit.relocate]
  path_ne := by simp

theorem putBelow {segment : String} (h : segment ≠ "") (kind : Kind) (value : Option Json) :
    Places (·.putBelow segment kind value) [⟨kind, [segment], value⟩] where
  eq_note r := by simp [Recorder.putBelow, Recorder.note, Edit.relocate]
  path_ne := by simp [h]

theorem comp {f g : Recorder → Recorder} {es fs : List Edit} (hf : Places f es)
    (hg : Places g fs) : Places (fun r => g (f r)) (es ++ fs) where
  eq_note r := by
    rw [hf.eq_note, hg.eq_note]
    simp [Recorder.note]
  path_ne e he := by
    rcases List.mem_append.1 he with he | he
    · exact hf.path_ne e he
    · exact hg.path_ne e he

-- The cursor is one level deeper in between, and the last segment is taken off again.
theorem nested {segment : String} (h : segment ≠ "") {f : Recorder → Recorder} {es : List Edit}
    (hf : Places f es) : Places (·.nested segment f) (under segment es) where
  eq_note r := by
    rw [Recorder.nested, hf.eq_note]
    simp [Recorder.leave, Recorder.note, Recorder.enter, under, Edit.relocate]
  path_ne e he := by
    obtain ⟨inner, -, rfl⟩ := List.mem_map.1 he
    intro hpath
    exact h (List.cons.inj hpath).1

-- One step for each item of a list.
theorem each {ι : Type} {f : ι → Recorder → Recorder} {e : ι → Edit}
    (h : ∀ i, Places (f i) [e i]) (is : List ι) :
    Places (fun r => is.foldl (fun r i => f i r) r) (is.map e) := by
  induction is with
  | nil => exact nothing
  | cons i is ih => exact (h i).comp ih

end Places

/-- The routine places the steps `es`, or some others where it walks through one object. -/
def Follows (same : Bool) (f : Recorder → Recorder) (es : List Edit) : Prop :=
  ∃ placed, Places f placed ∧ (same = false → placed = es)

namespace Follows

variable {same : Bool} {f g : Recorder → Recorder} {es fs : List Edit}

theorem of_places (h : Places f es) : Follows same f es := ⟨es, h, fun _ => rfl⟩

theorem comp (hf : Follows same f es) (hg : Follows same g fs) :
    Follows same (fun r => g (f r)) (es ++ fs) := by
  obtain ⟨placed, hplaced, heq⟩ := hf
  obtain ⟨placed', hplaced', heq'⟩ := hg
  exact ⟨_, hplaced.comp hplaced', fun hsame => congrArg₂ _ (heq hsame) (heq' hsame)⟩

theorem nested {segment : String} (h : segment ≠ "") (hf : Follows same f es) :
    Follows same (·.nested segment f) (under segment es) := by
  obtain ⟨placed, hplaced, heq⟩ := hf
  exact ⟨_, hplaced.nested h, fun hsame => congrArg _ (heq hsame)⟩

-- The routines of a list, one after the other, with what each of them follows.
theorem foldl {ι κ : Type} {f : ι → Recorder → Recorder} {es : κ → List Edit} {is : List ι}
    {ks : List κ} (h : List.Forall₂ (fun i k => Follows same (f i) (es k)) is ks) :
    Follows same (fun r => is.foldl (fun r i => f i r) r) (ks.flatMap es) := by
  induction h with
  | nil => exact of_places .nothing
  | cons hhead _ ih => exact hhead.comp ih

end Follows

/-! ## 3. Walks through values and collections -/

section

variable {α : Type} [Encode α]

theorem follows_scalar [BEq α] (same : Bool) (old new : α) :
    Follows same (scalar same old new) (Diff.scalar old new) := by
  unfold scalar Diff.scalar
  split
  · exact .of_places .nothing
  · exact .of_places (.put .replace _)

/-- Types of which the walks follow the edits. -/
class Walked (α : Type) [Encode α] [Diff α] [Walk α] : Prop where
  follows : ∀ (same : Bool) (old new : α), Follows same (walk same old new) (edits old new)

variable [Diff α] [Walk α] [Walked α]

theorem follows_value (same : Bool) (old new : α) :
    Follows same (value same old new) (edits old new) := by
  cases same with
  | true => exact ⟨[], .nothing, by simp⟩
  | false => exact Walked.follows false old new

theorem follows_presence (same : Bool) (old new : Option α) :
    Follows same (presence same old new) (Diff.presence old new) := by
  cases old with
  | none =>
    cases new with
    | none => exact .of_places .nothing
    | some new => exact .of_places (.put .add _)
  | some old =>
    cases new with
    | none => exact .of_places (.put .remove none)
    | some new => exact follows_value same old new

theorem item_ne_empty (i : Nat) : Diff.item i ≠ "" := by
  intro h
  have hread := Json.index?_item i
  rw [h] at hread
  cases hread

theorem places_remove_item (cursor : Nat) :
    Places (·.putBelow (Diff.item cursor) .remove none) [.remove [Diff.item cursor]] :=
  .putBelow (item_ne_empty cursor) .remove none

theorem follows_list [BEq α] (same : Bool) (cursor : Nat) (old new : List α) :
    Follows same (list same cursor old new) (Diff.list cursor old new) := by
  -- the cases: no old items left, no new ones left, an old item dropped, two items paired
  induction cursor, old, new using Diff.list.induct with
  | case1 cursor new =>
    have hadd : ∀ b : α, Places (·.putBelow behindLast .add (some (encode b)))
        [.add [behindLast] (encode b)] := fun b => .putBelow (by decide) .add _
    exact .of_places (Places.each hadd new)
  | case2 cursor a old =>
    exact .of_places (Places.each (fun _ : α => places_remove_item cursor) (a :: old))
  | case3 cursor a old b new hdrop ih =>
    have hwalk : list same cursor (a :: old) (b :: new) = fun r =>
        list same cursor old (b :: new) (r.putBelow (Diff.item cursor) .remove none) := by
      funext r
      rw [list, if_pos hdrop]
    rw [hwalk, Diff.list, if_pos hdrop]
    exact (Follows.of_places (places_remove_item cursor)).comp ih
  | case4 cursor a old b new hpair ih =>
    have hwalk : list same cursor (a :: old) (b :: new) = fun r =>
        list same (cursor + 1) old new (r.nested (Diff.item cursor) (value same a b)) := by
      funext r
      rw [list, if_neg hpair]
    rw [hwalk, Diff.list, if_neg hpair]
    exact ((follows_value same a b).nested (item_ne_empty cursor)).comp ih

theorem follows_map {κ : Type} [MapKey κ] [IntegerKey κ] (same : Bool) (old new : SortedMap κ α) :
    Follows same (map same old new) (Diff.map old new) := by
  refine Follows.foldl (List.forall₂_same.2 fun k _ => ?_)
  exact (follows_presence same (old.get? k) (new.get? k)).nested (IntegerKey.name_ne_empty k)

end

/-! ## 4. Types that are walked through -/

instance : Walked Bool := ⟨follows_scalar⟩
instance : Walked String := ⟨follows_scalar⟩
instance : Walked UInt8 := ⟨follows_scalar⟩
instance : Walked UInt16 := ⟨follows_scalar⟩
instance : Walked UInt32 := ⟨follows_scalar⟩
instance : Walked UInt64 := ⟨follows_scalar⟩
instance : Walked Int32 := ⟨follows_scalar⟩
instance : Walked Int64 := ⟨follows_scalar⟩
instance : Walked Double := ⟨follows_scalar⟩
instance : Walked Single := ⟨follows_scalar⟩

instance (priority := low) {α : Type} [Constant α] [BEq α] : Walked α := ⟨follows_scalar⟩

section

variable {α : Type} [Encode α] [Diff α] [Walk α] [Walked α]

instance : Walked (Option α) := ⟨follows_presence⟩
instance [BEq α] : Walked (List α) := ⟨fun same => follows_list same 0⟩
instance {κ : Type} [MapKey κ] [IntegerKey κ] : Walked (SortedMap κ α) := ⟨follows_map⟩

end

/-! ## 5. Records -/

section

variable {R : Type}

/-- The walk through a member follows the edits of the member. -/
def FollowsMember (part : Part R) (m : Member R) : Prop :=
  ∀ same old new, Follows same (part same old new) (m.edits old new)

variable {α : Type} [Encode α] [Diff α] [Walk α] [Walked α] {name : String}

@[simp] theorem follows_always (h : name ≠ "") (get : R → α) :
    FollowsMember (field name get) (.always name get) :=
  fun same old new => (follows_value same (get old) (get new)).nested h

@[simp] theorem follows_optional (h : name ≠ "") (get : R → Option α) :
    FollowsMember (field name get) (.optional name get) :=
  fun same old new => (follows_value same (get old) (get new)).nested h

@[simp] theorem follows_hidden (h : name ≠ "") (visible : R → Bool) (get : R → Option α) :
    FollowsMember (field name get) (.hidden name visible get) :=
  fun same old new => (follows_value same (get old) (get new)).nested h

@[simp] theorem follows_flag (h : name ≠ "") (get : R → Bool) :
    FollowsMember (flag name get) (.flag name get) := by
  intro same old new
  unfold flag Member.flag
  dsimp only
  cases get old with
  | false =>
    cases get new with
    | false => exact .of_places .nothing
    | true => exact .of_places ((Places.put .add _).nested h)
  | true =>
    cases get new with
    | false => exact .of_places ((Places.put .remove none).nested h)
    | true => exact .of_places .nothing

@[simp] theorem follows_sequence [BEq α] (h : name ≠ "") (get : R → List α) :
    FollowsMember (sequence name get) (.sequence name get) := by
  intro same old new
  unfold sequence Member.sequence
  dsimp only
  cases get old with
  | nil =>
    cases get new with
    | nil => exact .of_places .nothing
    | cons b bs => exact .of_places ((Places.put .add _).nested h)
  | cons a as =>
    cases get new with
    | nil => exact .of_places ((Places.put .remove none).nested h)
    | cons b bs => exact (follows_list same 0 (a :: as) (b :: bs)).nested h

-- What is made for the comparison is walked through as two objects in any case.
@[simp] theorem follows_made {part : Part R} {m : Member R} (h : FollowsMember part m) :
    FollowsMember (made part) m := by
  intro same old new
  obtain ⟨placed, hplaced, heq⟩ := h false old new
  exact ⟨placed, hplaced, fun _ => heq rfl⟩

end

/-- Records of which the walks follow the members. -/
class WalkedRecord (R : Type) [Record R] [RecordWalk R] : Prop where
  follows : List.Forall₂ FollowsMember RecordWalk.parts (Record.members : List (Member R))

theorem follows_record {R : Type} [Record R] [RecordWalk R] [WalkedRecord R] (same : Bool)
    (old new : R) :
    Follows same (through RecordWalk.parts same old new)
      (Member.differences Record.members old new) :=
  .foldl (WalkedRecord.follows.imp fun _ _ hpart => hpart same old new)

instance (priority := low) {R : Type} [Record R] [RecordWalk R] [WalkedRecord R] : Walked R :=
  ⟨follows_record⟩

/-! ## 6. What a walk does -/

section

variable {α : Type} [Encode α] [Diff α] [Walk α] [Walked α]

theorem exists_note (same : Bool) (old new : α) :
    ∃ placed, (∀ e ∈ placed, e.path ≠ [""]) ∧
      ∀ r : Recorder, walk same old new r = r.note placed := by
  obtain ⟨placed, hplaced, -⟩ := Walked.follows same old new
  exact ⟨placed, hplaced.path_ne, hplaced.eq_note⟩

-- Two objects are compared as the edits between them say.
theorem walk_eq_compare (old new : α) (r : Recorder) :
    walk false old new r = r.compare old new := by
  obtain ⟨placed, hplaced, heq⟩ := Walked.follows false old new
  rw [hplaced.eq_note, heq rfl, Recorder.compare]

end

end Walk

namespace Patch.Recorder

theorem operations_note (r : Recorder) {es : List Edit} (h : ∀ e ∈ es, e.path ≠ [""]) :
    (r.note es).operations =
      r.operations ++ (es.map Operation.ofEdit).map (Operation.relocate r.cursor) := by
  rw [operations, note, List.map_append, List.map_map, List.map_map]
  refine congrArg _ (List.map_congr_left fun e he => ?_)
  exact Operation.ofEdit_relocate (h e he) r.cursor

theorem operations_note_fresh (es : List Edit) :
    (({} : Recorder).note es).operations = es.map Operation.ofEdit := by
  simp [operations, note, Edit.relocate]

end Patch.Recorder

end MbsClient
