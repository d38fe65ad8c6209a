import MbsClient.Patch.Recorder
import MbsClient.Proofs.Patch.Lawful
import MbsClient.Proofs.Text.Decimal

/-!
# Maps by key — one group of steps under each key

Maps are compared key by key, in the order of the keys as numbers, which is not that of their texts.
Each group stays under its key, so that the groups may be taken in any order.
-/

namespace MbsClient

open Patch Json

/-- Keys that are integers: in the order of these, and written in their digits. -/
class IntegerKey (κ : Type) [MapKey κ] where
  toInt : κ → Int
  toInt_injective : Function.Injective toInt
  lt_iff : ∀ k l : κ, KeyOrder.lt k l = true ↔ toInt k < toInt l
  name_eq : ∀ k : κ, MapKey.name k = String.ofList (Text.Decimal.ofInt (toInt k))

instance : IntegerKey UInt32 where
  toInt k := k.toNat
  toInt_injective _ _ h := UInt32.toNat_inj.1 (Int.ofNat.inj h)
  lt_iff k l := by
    show decide (k < l) = true ↔ _
    rw [decide_eq_true_eq, UInt32.lt_iff_toNat_lt, Int.ofNat_lt]
  name_eq k := by
    have hnonneg : ¬ (k.toNat : Int) < 0 := Int.not_lt.2 (Int.natCast_nonneg _)
    rw [Text.Decimal.ofInt, if_neg hnonneg, Int.natAbs_natCast]
    rfl

instance : IntegerKey Int where
  toInt := id
  toInt_injective := Function.injective_id
  lt_iff _ _ := decide_eq_true_iff
  name_eq _ := rfl

namespace IntegerKey

variable {κ : Type} [MapKey κ] [IntegerKey κ]

theorem name_injective : Function.Injective (MapKey.name : κ → String) := by
  intro k l h
  rw [name_eq, name_eq, String.ofList_inj] at h
  exact toInt_injective (Text.Decimal.ofInt_injective h)

theorem name_ne_empty (k : κ) : MapKey.name k ≠ "" := by
  rw [name_eq]
  intro h
  exact Text.Decimal.ofInt_ne_nil _ (String.ofList_inj.1 h)

end IntegerKey

namespace Diff

variable {κ : Type} [MapKey κ]

theorem pairwise_eitherKeys [IntegerKey κ] {β : Type} (old new : SortedMap κ β) :
    (eitherKeys old new).Pairwise fun k l => IntegerKey.toInt k < IntegerKey.toInt l := by
  rw [eitherKeys, SortedMap.keys, List.pairwise_map]
  exact (SortedMap.ofList _).sorted.imp fun h => (IntegerKey.lt_iff _ _).1 h

variable {α : Type} [Encode α] [Diff α] {old new : SortedMap κ α}

/-- The steps under one key: a key that goes is removed, one that comes is added with its value, and
a value that stays is compared. -/
def keyEdits (old new : SortedMap κ α) (k : κ) : List Edit :=
  match old.get? k, new.get? k with
  | some _, none => [.remove [MapKey.name k]]
  | none, some b => [.add [MapKey.name k] (encode b)]
  | some a, some b => under (MapKey.name k) (edits a b)
  | none, none => []

theorem map_eq_flatMap (old new : SortedMap κ α) :
    map old new = (eitherKeys old new).flatMap (keyEdits old new) := by
  rw [map]
  congr 1
  funext k
  rw [keyEdits]
  cases old.get? k <;> cases new.get? k <;> rfl

-- The steps of a group see and change what lies under their key, and nothing else.
theorem fills_keyEdits [SelfSame α] {k : κ}
    (h : ∀ a b, old.get? k = some a → new.get? k = some b →
      ∃ d, edits? (edits a b) (encode a) = some d ∧ (d == encode b) = true) :
    Fills (MapKey.name k) ((old.get? k).map encode) ((new.get? k).map encode)
      (keyEdits old new k) := by
  unfold keyEdits
  cases hold : old.get? k with
  | none =>
    cases hnew : new.get? k with
    | none => exact Fills.nil .none
    | some b => exact Fills.add (same_self b)
  | some a =>
    cases hnew : new.get? k with
    | none => exact Fills.remove
    | some b => exact Fills.under_of_reaches (h a b hold hnew)

/-- Maps with integer keys are compared key by key. There is one group of steps for each key of
either map, in ascending order of the numbers: a removal, an addition, or the steps between the two
values under the key. Where these lead from value to value, all groups together lead from map to
map, in whatever order they are taken. -/
theorem compare_maps_by_key [IntegerKey κ] [SelfSame α]
    (hvalues : ∀ k a b, old.get? k = some a → new.get? k = some b →
      ∃ d, edits? (edits a b) (encode a) = some d ∧ (d == encode b) = true) (r : Recorder) :
    (r.compare old new).recorded = r.recorded ++
        ((eitherKeys old new).flatMap (keyEdits old new)).map (Edit.relocate r.cursor) ∧
      ((eitherKeys old new).Pairwise fun k l => IntegerKey.toInt k < IntegerKey.toInt l) ∧
      (∀ k, k ∈ eitherKeys old new ↔ k ∈ old.keys ∨ k ∈ new.keys) ∧
      ∀ ks : List κ, ks.Perm (eitherKeys old new) →
        ∃ doc, patch? ((ks.flatMap (keyEdits old new)).map Operation.ofEdit) (encode old) =
          some doc ∧ (doc == encode new) = true := by
  refine ⟨?_, pairwise_eitherKeys old new, fun k => mem_eitherKeys, fun ks hks => ?_⟩
  · rw [← map_eq_flatMap]
    rfl
  · have hfills := fun k => fills_keyEdits (hvalues k)
    have hpaths : ∀ e ∈ ks.flatMap (keyEdits old new), e.path ≠ [""] := by
      intro e he
      obtain ⟨k, -, hek⟩ := List.mem_flatMap.1 he
      obtain ⟨path, hpath⟩ := (hfills k).inside e hek
      rw [hpath]
      exact fun h => IntegerKey.name_ne_empty k (List.cons.inj h).1
    obtain ⟨doc, hdoc, hsame⟩ := (turns_keys IntegerKey.name_injective hks hfills).reaches
    exact ⟨doc, (patch?_ofEdit hpaths _).trans hdoc, hsame⟩

/-- Lists under keys of which one goes, one comes, and one has a list that changes. -/
def numberedBefore : SortedMap Int (List String) :=
  .ofList [(10, ["d"]), (2, ["b", "c"]), (-5, ["a"])]

def numberedAfter : SortedMap Int (List String) :=
  .ofList [(2, ["c"]), (10, ["d"]), (3, ["e"])]

theorem compare_maps_by_key_numbered :
    (∀ k a b, numberedBefore.get? k = some a → numberedAfter.get? k = some b →
      ∃ d, edits? (edits a b) (encode a) = some d ∧ (d == encode b) = true) ∧
    (({ cursor := ["lists"] } : Recorder).compare numberedBefore numberedAfter).recorded =
      [.remove ["lists", "-5"], .remove ["lists", "2", "0"],
        .add ["lists", "3"] (.array [.string "e"])] ∧
    [3, 10, -5, 2].Perm (eitherKeys numberedBefore numberedAfter) ∧
    ∃ doc, patch? (([3, 10, -5, 2].flatMap (keyEdits numberedBefore numberedAfter)).map
        Operation.ofEdit) (encode numberedBefore) = some doc ∧
      (doc == encode numberedAfter) = true := by
  have hvalues : ∀ k a b, numberedBefore.get? k = some a → numberedAfter.get? k = some b →
      ∃ d, edits? (edits a b) (encode a) = some d ∧ (d == encode b) = true :=
    fun _ a b _ _ => (LawfulDiff.turns a b).reaches
  have hperm : [3, 10, -5, 2].Perm (eitherKeys numberedBefore numberedAfter) := by decide
  have hcompare := compare_maps_by_key hvalues { cursor := ["lists"] }
  exact ⟨hvalues, hcompare.1.trans rfl, hperm, hcompare.2.2.2 _ hperm⟩

end Diff

end MbsClient
