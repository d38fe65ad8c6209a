import Mathlib.Data.List.Forall2
import MbsClient.Patch.Recorder
import MbsClient.Proofs.Patch.Difference

/-!
# Removal — a list that shrinks to some of its items

Items are told apart by `==`, which need not be equality, nor hold of a NaN and itself. `removals`
says which steps take the items away that are not kept; `list_eq_removals` finds that the walk along
both lists takes just these. What the walk preserves is that the new items left are a subsequence of
the old ones left, and the next old item decides how (`Subsequence.cons_cases`): it is the first new
item, or it is none of them.
-/

namespace MbsClient.Diff

open Json Patch

variable {α : Type} [BEq α]

/-! ## 1. Subsequences -/

/-- The items of `new` are equal to items of `old`, in the order of these. -/
def Subsequence (new old : List α) : Prop :=
  List.SublistForall₂ (fun b a => (a == b) = true) new old

/-- No item is equal to a later one. -/
def Distinct (old : List α) : Prop := old.Pairwise fun a a' => (a == a') = false

namespace Subsequence

variable {a : α} {old new : List α}

theorem of_sublist [ReflBEq α] (h : new.Sublist old) : Subsequence new old :=
  List.sublistForall₂_iff.2 ⟨new, List.forall₂_same.2 fun _ _ => BEq.rfl, h⟩

theorem length_le (h : Subsequence new old) : new.length ≤ old.length := by
  obtain ⟨kept, hsame, hsub⟩ := List.sublistForall₂_iff.1 h
  exact hsame.length_eq ▸ hsub.length_le

theorem exists_eq (h : Subsequence new old) {b : α} (hb : b ∈ new) :
    ∃ a ∈ old, (a == b) = true := by
  induction h with
  | nil => cases hb
  | cons hab _ ih =>
    rcases List.mem_cons.1 hb with rfl | hb
    · exact ⟨_, List.mem_cons_self, hab⟩
    · obtain ⟨a, ha, heq⟩ := ih hb
      exact ⟨a, List.mem_cons_of_mem _ ha, heq⟩
  | cons_right _ ih =>
    obtain ⟨a, ha, heq⟩ := ih hb
    exact ⟨a, List.mem_cons_of_mem _ ha, heq⟩

variable [PartialEquivBEq α]

-- No two items that differ are equal to the same one.
theorem beq_eq_false_of_beq {a' b : α} (hne : (a == a') = false) (hab : (a == b) = true) :
    (a' == b) = false :=
  BEq.symm_false (BEq.neq_of_beq_of_neq (BEq.symm hab) hne)

theorem contains_eq_false (hne : ∀ a' ∈ old, (a == a') = false) (h : Subsequence new old) :
    new.contains a = false := by
  rw [Bool.eq_false_iff, ne_eq, List.contains_iff_exists_mem_beq]
  rintro ⟨b, hb, hab⟩
  obtain ⟨a', ha', heq⟩ := h.exists_eq hb
  rw [beq_eq_false_of_beq (hne a' ha') hab] at heq
  cases heq

-- The first old item is the first new one, and none of the later old items is; or no new item is
-- equal to it.
theorem cons_cases (hne : ∀ a' ∈ old, (a == a') = false) (h : Subsequence new (a :: old)) :
    (∃ b rest, new = b :: rest ∧ (a == b) = true ∧ Subsequence rest old ∧
      ∀ a' ∈ old, new.contains a' = rest.contains a') ∨
    (new.contains a = false ∧ Subsequence new old) := by
  cases h with
  | nil => exact .inr ⟨rfl, .nil⟩
  | @cons b _ rest _ hab h =>
    refine .inl ⟨b, rest, rfl, hab, h, fun a' ha' => ?_⟩
    rw [List.contains_cons, beq_eq_false_of_beq (hne a' ha') hab, Bool.false_or]
  | cons_right h => exact .inr ⟨contains_eq_false hne h, h⟩

-- The old items that occur among the new ones are the new ones.
theorem forall₂_filter (hdistinct : Distinct old) (h : Subsequence new old) :
    List.Forall₂ (fun a b => (a == b) = true) (old.filter new.contains) new := by
  induction old generalizing new with
  | nil =>
    cases h
    exact .nil
  | cons a old ih =>
    obtain ⟨hne, hdistinct⟩ := List.pairwise_cons.1 hdistinct
    rcases cons_cases hne h with ⟨b, rest, rfl, hab, hrest, hsame⟩ | ⟨hdropped, hrest⟩
    · have hkept : (b :: rest).contains a = true := by
        rw [List.contains_cons, hab, Bool.true_or]
      rw [List.filter_cons_of_pos hkept, List.filter_congr hsame]
      exact .cons hab (ih hdistinct hrest)
    · rw [List.filter_cons_of_neg (by simp [hdropped])]
      exact ih hdistinct hrest

end Subsequence

/-! ## 2. Removals -/

section

omit [BEq α]

/-- Where the items lie that are not kept, in ascending order. -/
def droppedAt (kept : α → Bool) (old : List α) : List Nat := old.findIdxs (!kept ·)

/-- How many of the items before the one at `i` are kept. -/
def keptBefore (kept : α → Bool) (old : List α) (i : Nat) : Nat := (old.take i).countP kept

/-- The steps that take away the items that are not kept. Each is removed where it is by then:
behind the items in front of the list and the kept ones before it. -/
def removals (kept : α → Bool) (cursor : Nat) (old : List α) : List Edit :=
  (droppedAt kept old).map fun i => .remove [item (cursor + keptBefore kept old i)]

variable {kept : α → Bool} {a : α}

theorem keptBefore_cons_succ (old : List α) (i : Nat) :
    keptBefore kept (a :: old) (i + 1) = keptBefore kept old i + if kept a then 1 else 0 := by
  rw [keptBefore, List.take_succ_cons, List.countP_cons, keptBefore]

theorem removals_cons_of_kept (h : kept a = true) (cursor : Nat) (old : List α) :
    removals kept cursor (a :: old) = removals kept (cursor + 1) old := by
  have hdropped : droppedAt kept (a :: old) = (droppedAt kept old).map (· + 1) := by
    rw [droppedAt, List.findIdxs_cons, if_neg (by simp [h]), List.findIdxs_start, droppedAt]
  rw [removals, removals, hdropped, List.map_map]
  refine List.map_congr_left fun i _ => ?_
  rw [Function.comp_apply, keptBefore_cons_succ, if_pos h, Nat.add_right_comm cursor 1,
    Nat.add_assoc]

theorem removals_cons_of_dropped (h : kept a = false) (cursor : Nat) (old : List α) :
    removals kept cursor (a :: old) = .remove [item cursor] :: removals kept cursor old := by
  have hdropped : droppedAt kept (a :: old) = 0 :: (droppedAt kept old).map (· + 1) := by
    rw [droppedAt, List.findIdxs_cons, if_pos (by simp [h]), List.findIdxs_start, droppedAt]
  rw [removals, removals, hdropped, List.map_cons, List.map_map]
  congr 1
  refine List.map_congr_left fun i _ => ?_
  rw [Function.comp_apply, keptBefore_cons_succ, if_neg (by simp [h]), Nat.add_zero]

theorem removals_congr {kept' : α → Bool} {old : List α} (h : ∀ a ∈ old, kept a = kept' a)
    (cursor : Nat) : removals kept cursor old = removals kept' cursor old := by
  induction old generalizing cursor with
  | nil => rfl
  | cons a old ih =>
    have hrest := ih fun a' ha' => h a' (List.mem_cons_of_mem _ ha')
    have ha := h a List.mem_cons_self
    cases hkept : kept' a with
    | true => rw [removals_cons_of_kept (ha.trans hkept), removals_cons_of_kept hkept, hrest]
    | false =>
      rw [removals_cons_of_dropped (ha.trans hkept), removals_cons_of_dropped hkept, hrest]

-- The items in front of the cursor are done; of those behind it the kept ones stay as they are.
theorem edits?_removals [Encode α] (kept : α → Bool) (done : List Json) (old : List α) :
    edits? (removals kept done.length old) (.array (done ++ old.map encode)) =
      some (.array (done ++ (old.filter kept).map encode)) := by
  induction old generalizing done with
  | nil => rfl
  | cons a old ih =>
    cases hkept : kept a with
    | true =>
      have hrest := ih (done ++ [encode a])
      rw [List.length_append, List.length_singleton] at hrest
      rw [removals_cons_of_kept hkept, List.filter_cons_of_pos hkept, List.map_cons, List.map_cons]
      simpa using hrest
    | false =>
      rw [removals_cons_of_dropped hkept, List.filter_cons_of_neg (by simp [hkept]), edits?_cons,
        List.map_cons]
      show (edit? .remove none [item done.length] _).bind _ = _
      rw [edit?_remove_item, Option.bind_some, ih]

end

/-! ## 3. The walk along both lists -/

variable [Encode α] [Diff α] [PartialEquivBEq α] {old new : List α}

theorem list_eq_removals (hedits : ∀ a b : α, (a == b) = true → edits a b = [])
    (hdistinct : Distinct old) (h : Subsequence new old) (cursor : Nat) :
    list cursor old new = removals new.contains cursor old := by
  induction cursor, old, new using list.induct with
  | case1 cursor new =>
    cases h
    rfl
  | case2 cursor a old =>
    -- nothing is kept, so the cursor stays
    induction old generalizing a with
    | nil => rfl
    | cons a' old ih =>
      have hrest := ih a' (List.pairwise_cons.1 hdistinct).2 .nil
      rw [list, List.map_cons, removals_cons_of_dropped rfl, ← hrest, list]
  | case3 cursor a old b new hdrop ih =>
    obtain ⟨hne, hdistinct⟩ := List.pairwise_cons.1 hdistinct
    have hdropped : (b :: new).contains a = false := by
      simpa using (Bool.and_eq_true_iff.1 hdrop).2
    rcases h.cons_cases hne with ⟨b', rest, heq, hab, -, -⟩ | ⟨-, hrest⟩
    · rw [heq, List.contains_cons, hab, Bool.true_or] at hdropped
      cases hdropped
    · rw [list, if_pos hdrop, removals_cons_of_dropped hdropped, ih hdistinct hrest]
  | case4 cursor a old b new hpair ih =>
    obtain ⟨hne, hdistinct⟩ := List.pairwise_cons.1 hdistinct
    rcases h.cons_cases hne with ⟨b', rest, heq, hab, hrest, hsame⟩ | ⟨hdropped, hrest⟩
    · obtain ⟨rfl, rfl⟩ := List.cons.inj heq
      have hkept : (b :: new).contains a = true := by
        rw [List.contains_cons, hab, Bool.true_or]
      rw [list, if_neg hpair, hedits a b hab, removals_cons_of_kept hkept, removals_congr hsame,
        ih hdistinct hrest]
      rfl
    · -- more old items are left than new ones, so this one would have been dropped
      have hlength : new.length < old.length := hrest.length_le
      exact absurd (Bool.and_eq_true_iff.2 ⟨decide_eq_true hlength, by rw [hdropped]; rfl⟩) hpair

/-- Shrinking to a subsequence is pure removal. For each item that does not come again there is one
removal, in the order of the items; it names the place behind the kept items before it, and the kept
items stay as they were. Equality is the one of the type, so a value need not be equal to itself. -/
theorem compare_of_subsequence (hedits : ∀ a b : α, (a == b) = true → edits a b = [])
    (hdistinct : Distinct old) (h : Subsequence new old) (r : Recorder) :
    (r.compare old new).recorded = r.recorded ++ (droppedAt new.contains old).map
        (fun i => .remove (r.cursor ++ [item (keptBefore new.contains old i)])) ∧
      (droppedAt new.contains old).length = old.length - new.length ∧
      (droppedAt new.contains old).Pairwise (· < ·) ∧
      List.Forall₂ (fun a b => (a == b) = true) (old.filter new.contains) new ∧
      edits? (edits old new) (encode old) = some (encode (old.filter new.contains)) := by
  have hlist : edits old new = removals new.contains 0 old := list_eq_removals hedits hdistinct h 0
  have hkept := h.forall₂_filter hdistinct
  refine ⟨?_, ?_, List.pairwise_findIdxs, hkept, ?_⟩
  · show r.recorded ++ (edits old new).map (Edit.relocate r.cursor) = _
    rw [hlist, removals, List.map_map]
    congr 1
    refine List.map_congr_left fun i _ => ?_
    show Edit.remove (r.cursor ++ [item (0 + keptBefore new.contains old i)]) = _
    rw [Nat.zero_add]
  · have hcount : old.countP new.contains = new.length := by
      rw [List.countP_eq_length_filter, hkept.length_eq]
    have hdropped : (droppedAt new.contains old).length = old.countP fun a => !new.contains a :=
      List.length_findIdxs
    have hlength := List.length_eq_countP_add_countP new.contains (l := old)
    simp only [Bool.not_eq_true, Bool.decide_eq_false] at hlength
    omega
  · rw [hlist]
    exact edits?_removals new.contains [] old

/-- Five letters of which two are kept, below a member named `list`. -/
theorem compare_twoOfFiveLetters :
    (∀ a b : String, (a == b) = true → edits a b = []) ∧
      Distinct ["a", "b", "c", "d", "e"] ∧ Subsequence ["b", "d"] ["a", "b", "c", "d", "e"] ∧
      (({ cursor := ["list"] } : Recorder).compare ["a", "b", "c", "d", "e"] ["b", "d"]).recorded =
        [.remove ["list", "0"], .remove ["list", "1"], .remove ["list", "2"]] := by
  have hedits : ∀ a b : String, (a == b) = true → edits a b = [] := fun _ _ h => if_pos h
  have hdistinct : Distinct ["a", "b", "c", "d", "e"] := by
    unfold Distinct
    decide
  have hsub : Subsequence ["b", "d"] ["a", "b", "c", "d", "e"] :=
    Subsequence.of_sublist (by decide)
  exact ⟨hedits, hdistinct, hsub, (compare_of_subsequence hedits hdistinct hsub _).1.trans rfl⟩

end MbsClient.Diff
