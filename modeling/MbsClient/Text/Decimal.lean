/-!
# Decimal numerals — digits of a natural number and back

A numeral has at least one digit and nothing but ASCII digits; leading zeros are read
(`value?_digits` is the round trip).
-/

namespace MbsClient.Text.Decimal

/-- The digits of `n`, without leading zeros. -/
def digits (n : Nat) : List Char := Nat.toDigits 10 n

/-- The number that digits denote; no digits denote 0. -/
def value (cs : List Char) : Nat := Nat.ofDigitChars 10 cs 0

/-- The digits of `n` as a string. -/
def text (n : Nat) : String := String.ofList (digits n)

def value? (cs : List Char) : Option Nat :=
  if !cs.isEmpty && cs.all Char.isDigit then some (value cs) else none

/-- A numeral without superfluous leading zeros. -/
def plain? (cs : List Char) : Option Nat :=
  if cs.head? = some '0' && cs.length ≠ 1 then none else value? cs

/-- Digits on the left filled up with zeros. -/
def padded (width n : Nat) : List Char :=
  let ds := digits n
  List.replicate (width - ds.length) '0' ++ ds

/-- A sign where the number is negative, then digits. -/
def ofInt (n : Int) : List Char :=
  if n < 0 then '-' :: digits n.natAbs else digits n.natAbs

theorem digits_ne_nil (n : Nat) : digits n ≠ [] := by
  simp [digits]

theorem isDigit_of_mem_digits {n : Nat} {c : Char} (h : c ∈ digits n) : c.isDigit = true :=
  Nat.isDigit_of_mem_toDigits (by decide) (by decide) h

theorem value_digits (n : Nat) : value (digits n) = n :=
  Nat.ofDigitChars_toDigits (by decide) (by decide)

theorem value?_digits (n : Nat) : value? (digits n) = some n := by
  have hall : (digits n).all Char.isDigit = true :=
    List.all_eq_true.2 fun _ => isDigit_of_mem_digits
  simp [value?, hall, value_digits, digits_ne_nil]

/-- Only the number zero has a numeral that starts with a zero. -/
theorem eq_zero_of_head?_digits {n : Nat} (h : (digits n).head? = some '0') : n = 0 := by
  induction n using Nat.strongRecOn with
  | ind n ih =>
    rw [digits, Nat.toDigits_eq_if (by decide)] at h
    split at h
    · rename_i hlt
      revert h
      match n, hlt with
      | 0, _ => exact fun _ => rfl
      | 1, _ | 2, _ | 3, _ | 4, _ | 5, _ | 6, _ | 7, _ | 8, _ | 9, _ => decide
    · rename_i hge
      obtain ⟨c, ds, hds⟩ := List.exists_cons_of_ne_nil (digits_ne_nil (n / 10))
      have hhead : (digits (n / 10)).head? = some '0' := by
        rw [show Nat.toDigits 10 (n / 10) = c :: ds from hds] at h
        rw [hds]
        exact h
      have := ih (n / 10) (by omega) hhead
      omega

theorem plain?_digits (n : Nat) : plain? (digits n) = some n := by
  unfold plain?
  rw [if_neg, value?_digits]
  intro h
  simp only [ne_eq, decide_not, Bool.and_eq_true, decide_eq_true_eq, Bool.not_eq_eq_eq_not,
    Bool.not_true, decide_eq_false_iff_not] at h
  obtain rfl := eq_zero_of_head?_digits h.1
  exact h.2 rfl

theorem digits_injective {m n : Nat} (h : digits m = digits n) : m = n := by
  rw [← value_digits m, h, value_digits]

end MbsClient.Text.Decimal
