import Mathlib.Data.List.Induction
import Mathlib.Tactic.Ring
import MbsClient.Text.Hex

/-!
# Hexadecimal round trip — digits of a number read back as the number

In the other direction, digits of either case are those of the number they denote, but for their
case (`fixed_of_value?`).
-/

namespace MbsClient.Text.Hex

theorem valueFrom_append (acc : Nat) (as bs : List Char) :
    valueFrom acc (as ++ bs) = (valueFrom acc as).bind fun v => valueFrom v bs := by
  induction as generalizing acc with
  | nil => rfl
  | cons c as ih =>
    rw [List.cons_append, valueFrom, valueFrom]
    cases digitValue? c with
    | none => rfl
    | some d => exact ih _

theorem digitValue?_lowerDigit {n : Nat} (h : n < 16) : digitValue? (lowerDigit n) = some n := by
  revert n
  decide

-- Digits of either case; what `k` of them cannot hold is cut off at the front.
theorem valueFrom_lastDigits {digit : Nat → Char}
    (hdigit : ∀ {n}, n < 16 → digitValue? (digit n) = some n) (k acc n : Nat) :
    valueFrom acc ((lastDigits k n).map digit) = some (acc * 16 ^ k + n % 16 ^ k) := by
  induction k generalizing n with
  | zero => simp [lastDigits, valueFrom, Nat.mod_one]
  | succ k ih =>
    have hlast : n % 16 < 16 := Nat.mod_lt _ (by decide)
    have hsplit : n % 16 ^ (k + 1) = n % 16 + 16 * (n / 16 % 16 ^ k) := by
      rw [Nat.pow_succ, Nat.mul_comm, Nat.mod_mul]
    rw [lastDigits, List.map_append, valueFrom_append, ih, Option.bind_some, List.map_cons,
      List.map_nil, hsplit]
    simp only [valueFrom, hdigit hlast]
    congr 1
    ring

theorem lt_pow_width (n : Nat) : n < 16 ^ width n := by
  have hlog : n < 2 ^ (Nat.log2 n + 1) := Nat.lt_log2_self
  have hle : Nat.log2 n + 1 ≤ 4 * width n := by
    unfold width
    omega
  calc n < 2 ^ (Nat.log2 n + 1) := hlog
    _ ≤ 2 ^ (4 * width n) := Nat.pow_le_pow_right (by decide) hle
    _ = 16 ^ width n := by rw [Nat.pow_mul]

theorem width_le {n k : Nat} (hk : 0 < k) (h : n < 16 ^ k) : width n ≤ k := by
  by_cases hn : n = 0
  · rw [hn]
    exact hk
  · have hpow : n < 2 ^ (4 * k) := by rwa [Nat.pow_mul]
    have hlog := (Nat.log2_lt hn).2 hpow
    unfold width
    omega

theorem value?_fixed (least n : Nat) : value? (fixed least n) = some n := by
  have hlt : n < 16 ^ max least (width n) :=
    Nat.lt_of_lt_of_le (lt_pow_width n) (Nat.pow_le_pow_right (by decide) (Nat.le_max_right _ _))
  rw [value?, fixed, valueFrom_lastDigits digitValue?_digit, Nat.mod_eq_of_lt hlt]
  simp

theorem length_fixed {least n : Nat} (hleast : 0 < least) (h : n < 16 ^ least) :
    (fixed least n).length = least := by
  rw [fixed, List.length_map, length_lastDigits]
  exact Nat.max_eq_left (width_le hleast h)

theorem value?_lower (n : Nat) : value? (lower n) = some n := by
  rw [value?, lower, valueFrom_lastDigits digitValue?_lowerDigit, Nat.mod_eq_of_lt (lt_pow_width n)]
  simp

theorem length_lower (n : Nat) : (lower n).length = width n := by
  rw [lower, List.length_map, length_lastDigits]

theorem lower_ne_nil (n : Nat) : lower n ≠ [] := by
  intro h
  have hlength := length_lower n
  rw [h, List.length_nil] at hlength
  unfold width at hlength
  omega

theorem isDigit_of_mem_lower {n : Nat} {c : Char} (h : c ∈ lower n) : isDigit c = true := by
  obtain ⟨d, hd, rfl⟩ := List.mem_map.1 h
  rw [isDigit, digitValue?_lowerDigit (lt_of_mem_lastDigits hd)]
  rfl

-- A character that is no digit is not among the digits.
theorem not_mem_lower {c : Char} (hc : isDigit c = false) (n : Nat) : c ∉ lower n := by
  intro h
  rw [isDigit_of_mem_lower h] at hc
  cases hc

/-! ## Digits of either case -/

/-- The digits that are written. -/
def upperDigits : List Char := "0123456789ABCDEF".toList

/-- The digits that are read. -/
def eitherDigits : List Char := "0123456789ABCDEFabcdef".toList

theorem digit_mem_upperDigits {n : Nat} (h : n < 16) : digit n ∈ upperDigits := by
  revert n
  decide

theorem mem_upperDigits_of_mem_fixed {least n : Nat} {c : Char} (h : c ∈ fixed least n) :
    c ∈ upperDigits := by
  obtain ⟨d, hd, rfl⟩ := List.mem_map.1 h
  exact digit_mem_upperDigits (lt_of_mem_lastDigits hd)

theorem toNat_lt_of_digitValue? {c : Char} {d : Nat} (h : digitValue? c = some d) :
    c.toNat < 103 := by
  have hf : c ≤ 'f' := by
    unfold digitValue? at h
    split at h
    · rename_i hc
      exact Char.le_trans hc.2 (by decide)
    split at h
    · rename_i hc
      exact Char.le_trans hc.2 (by decide)
    split at h
    · rename_i hc
      exact hc.2
    · cases h
  exact Nat.lt_succ_of_le hf

-- All digits are among the first characters, where they can be looked through.
theorem digit_of_digitValue? {c : Char} {d : Nat} (h : digitValue? c = some d) :
    c ∈ eitherDigits ∧ digit d = c.toUpper := by
  have hall : ∀ n < 103, ∀ d ∈ digitValue? (Char.ofNat n),
      Char.ofNat n ∈ eitherDigits ∧ digit d = (Char.ofNat n).toUpper := by decide
  have hc := hall c.toNat (toNat_lt_of_digitValue? h) d
  rw [Char.ofNat_toNat] at hc
  exact hc h

theorem isSome_digitValue?_iff {c : Char} : (digitValue? c).isSome = true ↔ c ∈ eitherDigits := by
  refine ⟨fun h => ?_, fun h => ?_⟩
  · obtain ⟨d, hd⟩ := Option.isSome_iff_exists.1 h
    exact (digit_of_digitValue? hd).1
  · have hall : eitherDigits.all (fun c => (digitValue? c).isSome) = true := by decide
    exact List.all_eq_true.1 hall c h

theorem isSome_valueFrom_iff {acc : Nat} {cs : List Char} :
    (valueFrom acc cs).isSome = true ↔ ∀ c ∈ cs, c ∈ eitherDigits := by
  induction cs generalizing acc with
  | nil => simp [valueFrom]
  | cons c cs ih =>
    rw [List.forall_mem_cons, ← isSome_digitValue?_iff, valueFrom]
    cases digitValue? c with
    | none => simp
    | some d => simpa using ih

theorem valueFrom_concat {acc v : Nat} {cs : List Char} {c : Char}
    (h : valueFrom acc (cs ++ [c]) = some v) :
    ∃ w d, valueFrom acc cs = some w ∧ digitValue? c = some d ∧ v = 16 * w + d := by
  rw [valueFrom_append, Option.bind_eq_some_iff] at h
  obtain ⟨w, hw, hv⟩ := h
  rw [valueFrom] at hv
  split at hv
  · rename_i d hd
    exact ⟨w, d, hw, hd, (Option.some.inj hv).symm⟩
  · cases hv

-- The last digit read is the last one written.
theorem lastDigits_of_valueFrom {acc v : Nat} {cs : List Char} (h : valueFrom acc cs = some v) :
    (lastDigits cs.length v).map digit = cs.map Char.toUpper := by
  induction cs using List.reverseRecOn generalizing v with
  | nil => rfl
  | append_singleton cs c ih =>
    obtain ⟨w, d, hw, hd, rfl⟩ := valueFrom_concat h
    have hlt := digitValue?_lt hd
    have hrest : (16 * w + d) / 16 = w := by omega
    have hlast : (16 * w + d) % 16 = d := by omega
    rw [List.length_append, List.length_singleton, lastDigits, hrest, hlast, List.map_append,
      ih hw, List.map_append, List.map_singleton, List.map_singleton, (digit_of_digitValue? hd).2]

theorem fixed_of_value? {v : Nat} {cs : List Char} (hcs : cs ≠ []) (h : value? cs = some v) :
    fixed cs.length v = cs.map Char.toUpper := by
  have hwidth : width v ≤ cs.length := width_le (List.length_pos_iff.2 hcs) (value?_lt h)
  rw [fixed, Nat.max_eq_left hwidth]
  exact lastDigits_of_valueFrom h

end MbsClient.Text.Hex
