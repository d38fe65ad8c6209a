import Mathlib.Tactic.Ring
import MbsClient.Text.Decimal

/-!
# Padded numerals — digits of a known number
-/

namespace MbsClient.Text.Decimal

theorem length_digits_pos (n : Nat) : 0 < (digits n).length :=
  List.length_pos_iff.2 (digits_ne_nil n)

theorem length_digits_le {n k : Nat} (hk : 0 < k) : (digits n).length ≤ k ↔ n < 10 ^ k :=
  Nat.length_toDigits_le_iff (by decide) hk

theorem value_append (as bs : List Char) :
    value (as ++ bs) = value as * 10 ^ bs.length + value bs := by
  rw [value, value, value, Nat.ofDigitChars_append]
  generalize Nat.ofDigitChars 10 as 0 = start
  rw [Nat.ofDigitChars_eq_ofDigitChars_zero]
  ring

theorem value_cons (c : Char) (ds : List Char) :
    value (c :: ds) = (c.toNat - '0'.toNat) * 10 ^ ds.length + value ds := by
  have happend := value_append [c] ds
  simpa [value, Nat.ofDigitChars_cons, Nat.ofDigitChars_nil] using happend

theorem value_lt {ds : List Char} (h : ds.all Char.isDigit = true) :
    value ds < 10 ^ ds.length := by
  induction ds with
  | nil => decide
  | cons c ds ih =>
    simp only [List.all_cons, Bool.and_eq_true] at h
    have hrest := ih h.2
    have hdigit : c.toNat - '0'.toNat ≤ 9 := by
      have hc := h.1
      simp only [Char.isDigit, Bool.and_eq_true, decide_eq_true_eq] at hc
      have hhigh : c.toNat ≤ 57 := hc.2
      have hzero : '0'.toNat = 48 := rfl
      omega
    calc value (c :: ds)
        = (c.toNat - '0'.toNat) * 10 ^ ds.length + value ds := value_cons c ds
      _ < 9 * 10 ^ ds.length + 10 ^ ds.length :=
          Nat.add_lt_add_of_le_of_lt (Nat.mul_le_mul_right _ hdigit) hrest
      _ = 10 ^ (c :: ds).length := by
          rw [List.length_cons, Nat.pow_succ]
          ring

theorem value?_eq_some_iff {ds : List Char} {n : Nat} :
    value? ds = some n ↔ ds ≠ [] ∧ ds.all Char.isDigit = true ∧ value ds = n := by
  simp [value?, and_assoc]

theorem value_replicate_zero (k : Nat) : value (List.replicate k '0') = 0 := by
  rw [value, Nat.ofDigitChars_replicate_zero]
  exact Nat.mul_zero _

theorem value_padded (width n : Nat) : value (padded width n) = n := by
  rw [padded, value_append, value_replicate_zero, value_digits]
  omega

theorem length_padded {width n : Nat} (hwidth : 0 < width) (hn : n < 10 ^ width) :
    (padded width n).length = width := by
  have hle := (length_digits_le hwidth).2 hn
  rw [padded, List.length_append, List.length_replicate]
  omega

theorem isDigit_of_mem_padded {width n : Nat} {c : Char} (h : c ∈ padded width n) :
    c.isDigit = true := by
  rcases List.mem_append.1 h with h | h
  · rw [List.eq_of_mem_replicate h]
    rfl
  · exact isDigit_of_mem_digits h

theorem padded_ne_nil (width n : Nat) : padded width n ≠ [] :=
  List.append_ne_nil_of_right_ne_nil _ (digits_ne_nil n)

-- A character that is no digit is not among the digits.
theorem not_mem_digits {c : Char} (hc : c.isDigit = false) (n : Nat) : c ∉ digits n := by
  intro h
  rw [isDigit_of_mem_digits h] at hc
  cases hc

theorem ofInt_injective {m n : Int} (h : ofInt m = ofInt n) : m = n := by
  have hsign : ∀ (k : Nat) (ds : List Char), digits k ≠ '-' :: ds := fun k ds hds =>
    not_mem_digits (c := '-') rfl k (hds ▸ List.mem_cons_self)
  unfold ofInt at h
  split at h <;> split at h
  · have habs := digits_injective (List.cons.inj h).2
    omega
  · exact absurd h.symm (hsign _ _)
  · exact absurd h (hsign _ _)
  · have habs := digits_injective h
    omega

theorem ofInt_ne_nil (n : Int) : ofInt n ≠ [] := by
  unfold ofInt
  split
  · exact List.cons_ne_nil _ _
  · exact digits_ne_nil _

theorem all_isDigit_digits (n : Nat) : (digits n).all Char.isDigit = true :=
  List.all_eq_true.2 fun _ => isDigit_of_mem_digits

theorem all_isDigit_padded (width n : Nat) : (padded width n).all Char.isDigit = true :=
  List.all_eq_true.2 fun _ => isDigit_of_mem_padded

/-! ## Digits at the start of a text -/

/-- The text does not go on with a digit. -/
def Stops (cs : List Char) : Prop := ∀ c ∈ cs.head?, c.isDigit = false

theorem takeWhile_isDigit {ds rest : List Char} (hds : ds.all Char.isDigit = true)
    (hrest : Stops rest) : (ds ++ rest).takeWhile Char.isDigit = ds := by
  rw [List.takeWhile_append_of_pos (List.all_eq_true.1 hds)]
  cases rest with
  | nil => simp
  | cons c rest => simp [hrest c rfl]

end MbsClient.Text.Decimal
