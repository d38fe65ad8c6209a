import MbsClient.Patch.Record

/-!
# Unchanged values — no edits lead from a value to itself

This needs values that compare equal to themselves, which all do but NaN. So there are two forms of
each fact: one for types without numbers of floating point, carried by a class, and one for a value
of which the parts are known to be unchanged.
-/

namespace MbsClient

open Patch

namespace Diff

variable {α : Type} [Encode α]

/-- Types whose values have no edits to themselves. -/
class Steady (α : Type) [Diff α] : Prop where
  edits_self : ∀ a : α, edits a a = []

attribute [simp] Steady.edits_self

@[simp] theorem under_nil (segment : String) : under segment [] = [] := rfl

theorem scalar_self [BEq α] {a : α} (h : (a == a) = true) : scalar a a = [] := by
  rw [scalar, if_pos h]

theorem presence_self [Diff α] {a? : Option α} (h : ∀ a ∈ a?, edits a a = []) :
    presence a? a? = [] := by
  cases a? with
  | none => rfl
  | some a => exact h a rfl

-- Lists of one length are compared item by item.
theorem list_self [BEq α] [Diff α] {as : List α} (h : ∀ a ∈ as, edits a a = []) (cursor : Nat) :
    list cursor as as = [] := by
  induction as generalizing cursor with
  | nil => rfl
  | cons a as ih =>
    have hpaired : ¬ (decide (as.length < as.length) && !(a :: as).contains a) = true := by simp
    rw [list, if_neg hpaired, h a List.mem_cons_self, under_nil, List.nil_append]
    exact ih (fun b hb => h b (List.mem_cons_of_mem _ hb)) _

theorem map_self {κ : Type} [MapKey κ] [Diff α] {m : SortedMap κ α}
    (h : ∀ k, ∀ a ∈ m.get? k, edits a a = []) : map m m = [] := by
  rw [map, List.flatMap_eq_nil_iff]
  intro k _
  rw [presence_self (h k), under_nil]

instance [BEq α] [Diff α] [Steady α] : Steady (List α) :=
  ⟨fun _ => list_self (fun a _ => by simp) 0⟩

instance {κ : Type} [MapKey κ] [Diff α] [Steady α] : Steady (SortedMap κ α) :=
  ⟨fun _ => map_self fun _ a _ => by simp⟩

theorem values_self [Diff α] {a : α} (h : edits a a = []) : values a a = [] := by
  simp [values, snapshots, presence, h]

end Diff

/-! ## Records -/

namespace Member

open Diff

variable {R α : Type} [Encode α]

theorem edits_always_self_of [Diff α] (name : String) {get : R → α} {r : R}
    (h : Diff.edits (get r) (get r) = []) : (always name get).edits r r = [] := by
  show under name (Diff.edits (get r) (get r)) = []
  rw [h, under_nil]

theorem edits_optional_self_of [Diff α] (name : String) {get : R → Option α} {r : R}
    (h : ∀ a ∈ get r, Diff.edits a a = []) : (optional name get).edits r r = [] := by
  show under name (presence (get r) (get r)) = []
  rw [presence_self h, under_nil]

@[simp] theorem edits_always_self [Diff α] [Steady α] (name : String) (get : R → α) (r : R) :
    (always name get).edits r r = [] :=
  edits_always_self_of name (Steady.edits_self _)

@[simp] theorem edits_optional_self [Diff α] [Steady α] (name : String) (get : R → Option α)
    (r : R) : (optional name get).edits r r = [] :=
  edits_optional_self_of name fun a _ => Steady.edits_self a

@[simp] theorem edits_hidden_self [Diff α] [Steady α] (name : String) (visible : R → Bool)
    (get : R → Option α) (r : R) : (hidden name visible get).edits r r = [] := by
  simp [hidden, presence_self]

@[simp] theorem edits_flag_self (name : String) (get : R → Bool) (r : R) :
    (flag name get).edits r r = [] := by
  simp only [flag]
  cases get r <;> rfl

theorem edits_sequence_self_of [BEq α] [Diff α] (name : String) {get : R → List α} {r : R}
    (h : ∀ a ∈ get r, Diff.edits a a = []) : (sequence name get).edits r r = [] := by
  simp only [sequence]
  cases hget : get r with
  | nil => rfl
  | cons a as =>
    rw [hget] at h
    show under name (list 0 (a :: as) (a :: as)) = []
    rw [list_self h, under_nil]

@[simp] theorem edits_sequence_self [BEq α] [Diff α] [Steady α] (name : String)
    (get : R → List α) (r : R) : (sequence name get).edits r r = [] :=
  edits_sequence_self_of name fun a _ => Steady.edits_self a

theorem differences_self {members : List (Member R)} {r : R}
    (h : ∀ m ∈ members, m.edits r r = []) : differences members r r = [] :=
  List.flatMap_eq_nil_iff.2 h

end Member

/-- Records of which no member differs from itself. -/
class SteadyRecord (R : Type) [Record R] : Prop where
  edits_self : ∀ m ∈ (Record.members : List (Member R)), ∀ r, m.edits r r = []

instance (priority := low) {R : Type} [Record R] [SteadyRecord R] : Diff.Steady R :=
  ⟨fun r => Member.differences_self fun m hm => SteadyRecord.edits_self m hm r⟩

end MbsClient
