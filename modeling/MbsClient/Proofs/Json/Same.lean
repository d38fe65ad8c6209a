import Mathlib.Data.List.Forall2
import MbsClient.Json.Value
import MbsClient.Proofs.Data.Entries

/-!
# Equality of documents, part by part

Arrays are the same item by item, objects in sorted form look-up by look-up. A document is the same
as itself as long as it holds no NaN.
-/

namespace MbsClient

open Number

namespace Json

/-- The same value, or no value on either side. -/
abbrev SameOption : Option Json → Option Json → Prop := Option.Rel fun d e => (d == e) = true

theorem same_some_iff {d e : Json} : SameOption (some d) (some e) ↔ (d == e) = true :=
  Option.rel_some_some

theorem sameItems_of_forall₂ {xs ys : List Json}
    (h : List.Forall₂ (fun d e => (d == e) = true) xs ys) :
    sameItems xs ys = true := by
  induction h with
  | nil => rfl
  | cons hd _ ih =>
    rw [sameItems, Bool.and_eq_true]
    exact ⟨hd, ih⟩

theorem same_array {xs ys : List Json} (h : List.Forall₂ (fun d e => (d == e) = true) xs ys) :
    (Json.array xs == Json.array ys) = true :=
  sameItems_of_forall₂ h

-- Look-ups that are both there or both not there show that two sorted lists have the same keys.
theorem keys_eq_of_get? {xs ys : List (String × Json)} (hx : Entries.Sorted xs)
    (hy : Entries.Sorted ys) (h : ∀ k, SameOption (Entries.get? k xs) (Entries.get? k ys)) :
    xs.map Prod.fst = ys.map Prod.fst := by
  have hunit : xs.map (fun e => (e.1, ())) = ys.map (fun e => (e.1, ())) := by
    apply Entries.eq_of_get?_eq
    · simpa [Entries.Sorted, List.pairwise_map] using hx
    · simpa [Entries.Sorted, List.pairwise_map] using hy
    · intro k
      rw [Entries.get?_map (fun _ _ => ()), Entries.get?_map (fun _ _ => ())]
      have hk := h k
      generalize Entries.get? k xs = v, Entries.get? k ys = w at hk ⊢
      cases hk <;> rfl
  simpa [Function.comp_def] using congrArg (List.map Prod.fst) hunit

theorem sameMembers_of_get? {xs ys : List (String × Json)} (hx : Entries.Sorted xs)
    (hy : Entries.Sorted ys) (h : ∀ k, SameOption (Entries.get? k xs) (Entries.get? k ys)) :
    sameMembers xs ys = true := by
  have hkeys := keys_eq_of_get? hx hy h
  induction xs generalizing ys with
  | nil =>
    cases ys with
    | nil => rfl
    | cons f ys => simp at hkeys
  | cons e xs ih =>
    cases ys with
    | nil => simp at hkeys
    | cons f ys =>
      obtain ⟨k, v⟩ := e
      obtain ⟨l, w⟩ := f
      simp only [List.map_cons, List.cons.injEq] at hkeys
      obtain ⟨rfl, hrest⟩ := hkeys
      have hhead := h k
      rw [Entries.get?_cons, Entries.get?_cons, if_pos rfl, if_pos rfl] at hhead
      have hvw : (v == w) = true := same_some_iff.1 hhead
      have hx' := List.pairwise_cons.1 hx
      have hy' := List.pairwise_cons.1 hy
      have htail : sameMembers xs ys = true := by
        refine ih hx'.2 hy'.2 (fun k' => ?_) hrest
        by_cases hk : k' = k
        · subst hk
          rw [Entries.get?_eq_none_of_lt hx'.1, Entries.get?_eq_none_of_lt hy'.1]
          exact .none
        · simpa [Entries.get?_cons, hk] using h k'
      rw [sameMembers, Bool.and_eq_true, Bool.and_eq_true]
      exact ⟨⟨beq_self_eq_true k, hvw⟩, htail⟩

theorem same_object {xs ys : List (String × Json)} (hx : Entries.Sorted xs)
    (hy : Entries.Sorted ys) (h : ∀ k, SameOption (Entries.get? k xs) (Entries.get? k ys)) :
    (Json.object xs == Json.object ys) = true :=
  sameMembers_of_get? hx hy h

/-! The same in the other direction. -/

theorem same_array_iff {xs ys : List Json} :
    (Json.array xs == Json.array ys) = true ↔
      List.Forall₂ (fun d e => (d == e) = true) xs ys := by
  refine ⟨fun h => ?_, same_array⟩
  have hitems : sameItems xs ys = true := h
  clear h
  induction xs generalizing ys with
  | nil =>
    cases ys with
    | nil => exact .nil
    | cons y ys => simp [sameItems] at hitems
  | cons x xs ih =>
    cases ys with
    | nil => simp [sameItems] at hitems
    | cons y ys =>
      rw [sameItems, Bool.and_eq_true] at hitems
      exact .cons hitems.1 (ih hitems.2)

theorem get?_of_sameMembers {xs ys : List (String × Json)} (h : sameMembers xs ys = true)
    (k : String) : SameOption (Entries.get? k xs) (Entries.get? k ys) := by
  induction xs generalizing ys with
  | nil =>
    cases ys with
    | nil => exact .none
    | cons f ys => simp [sameMembers] at h
  | cons e xs ih =>
    cases ys with
    | nil => simp [sameMembers] at h
    | cons f ys =>
      obtain ⟨name, v⟩ := e
      obtain ⟨name', w⟩ := f
      rw [sameMembers, Bool.and_eq_true, Bool.and_eq_true, beq_iff_eq] at h
      obtain ⟨⟨rfl, hvw⟩, hrest⟩ := h
      rw [Entries.get?_cons, Entries.get?_cons]
      split
      · exact .some hvw
      · exact ih hrest

theorem same_object_iff {xs ys : List (String × Json)} (hx : Entries.Sorted xs)
    (hy : Entries.Sorted ys) :
    (Json.object xs == Json.object ys) = true ↔
      ∀ k, SameOption (Entries.get? k xs) (Entries.get? k ys) :=
  ⟨fun h => get?_of_sameMembers h, same_object hx hy⟩

theorem same_string_iff {s t : String} : (Json.string s == Json.string t) = true ↔ s = t :=
  beq_iff_eq (a := s) (b := t)

theorem same_int_iff {m n : Int} : (Json.int m == Json.int n) = true ↔ m = n :=
  beq_iff_eq (a := m) (b := n)

-- A text or an integer is the same as nothing but itself.
theorem eq_of_same {d e : Json} (hd : (∃ s, d = .string s) ∨ ∃ n, d = .int n)
    (he : (∃ s, e = .string s) ∨ ∃ n, e = .int n) (h : (d == e) = true) : d = e := by
  rcases hd with ⟨s, rfl⟩ | ⟨m, rfl⟩ <;> rcases he with ⟨t, rfl⟩ | ⟨n, rfl⟩
  · exact congrArg _ (same_string_iff.1 h)
  · cases h
  · cases h
  · exact congrArg _ (same_int_iff.1 h)

end Json

/-! ## Numbers -/

namespace Number

theorem sameNumber_self {f : Format} {bits : Nat} (h : unpack f bits ≠ .nan) :
    sameNumber f bits bits = true := by
  unfold sameNumber
  split
  · contradiction
  · contradiction
  · rfl
  · exact beq_self_eq_true bits

-- Patterns of the same number are zeros or equal.
theorem zero_or_eq_of_sameNumber {f : Format} {a b : Nat} (h : sameNumber f a b = true) :
    (∃ s t q r, unpack f a = .finite s 0 q ∧ unpack f b = .finite t 0 r) ∨
      (unpack f a ≠ .nan ∧ a = b) := by
  unfold sameNumber at h
  split at h
  · simp at h
  · simp at h
  · rename_i s q t r ha hb
    exact .inl ⟨s, t, q, r, ha, hb⟩
  · rename_i hna _ _
    exact .inr ⟨hna, by simpa using h⟩

-- Packing a zero leaves nothing but its sign.
theorem pack_zero (f : Format) (negative : Bool) (q : Int) :
    pack f (.finite negative 0 q) = if negative then f.signBit else 0 := by
  have hscale : (scale2 0 q).1 = 0 := by
    unfold scale2
    split <;> simp
  simp [pack, nearest, nearestMagnitude, hscale]

namespace Double

theorem beq_self_of_isFinite {x : Double} (h : x.isFinite = true) : (x == x) = true := by
  apply sameNumber_self
  intro hn
  have hunpack : x.unpack = .nan := hn
  simp [isFinite, hunpack] at h

-- Numbers that compare equal have the same document.
theorem same_ofDouble {x y : Double} (h : (x == y) = true) :
    (Json.ofDouble x == Json.ofDouble y) = true := by
  obtain ⟨s, t, q, r, hx, hy⟩ | ⟨-, heq⟩ := zero_or_eq_of_sameNumber h
  · have hfx : x.isFinite = true := by simp [isFinite, unpack, hx]
    have hfy : y.isFinite = true := by simp [isFinite, unpack, hy]
    simp only [Json.ofDouble, hfx, hfy, if_true]
    exact h
  · have hxy : x = y := by
      cases x
      cases y
      exact congrArg Double.mk (UInt64.toNat_inj.1 heq)
    subst hxy
    unfold Json.ofDouble
    split
    · exact h
    · rfl

theorem same_ofDouble_self (x : Double) : (Json.ofDouble x == Json.ofDouble x) = true := by
  unfold Json.ofDouble
  split
  · rename_i hf
    exact beq_self_of_isFinite hf
  · rfl

end Double

namespace Single

theorem beq_ofPattern_zero (s t : Bool) :
    (Double.ofPattern (if s then Format.double.signBit else 0) ==
      Double.ofPattern (if t then Format.double.signBit else 0)) = true := by
  cases s <;> cases t <;> decide

theorem same_toDouble {x y : Single} (h : (x == y) = true) :
    (Json.ofDouble x.toDouble == Json.ofDouble y.toDouble) = true := by
  obtain ⟨s, t, q, r, hx, hy⟩ | ⟨-, heq⟩ := zero_or_eq_of_sameNumber h
  · apply Double.same_ofDouble
    unfold toDouble unpack
    rw [hx, hy, pack_zero, pack_zero]
    exact beq_ofPattern_zero s t
  · have hxy : x = y := by
      cases x
      cases y
      exact congrArg Single.mk (UInt32.toNat_inj.1 heq)
    subst hxy
    exact Double.same_ofDouble_self x.toDouble

end Single

end Number

end MbsClient
