/-!
# Hexadecimal digits — fixed-width numerals in upper case

Writing pads with zeros on the left and never cuts; reading accepts both cases.
-/

namespace MbsClient.Text.Hex

/-- The upper-case digit of a number below 16. -/
def digit (n : Nat) : Char :=
  if n < 10 then Char.ofNat ('0'.toNat + n) else Char.ofNat ('A'.toNat + (n - 10))

def lowerDigit (n : Nat) : Char :=
  if n < 10 then Char.ofNat ('0'.toNat + n) else Char.ofNat ('a'.toNat + (n - 10))

/-- The value of an ASCII hexadecimal digit of either case. -/
def digitValue? (c : Char) : Option Nat :=
  if '0' ≤ c ∧ c ≤ '9' then some (c.toNat - '0'.toNat)
  else if 'A' ≤ c ∧ c ≤ 'F' then some (c.toNat - 'A'.toNat + 10)
  else if 'a' ≤ c ∧ c ≤ 'f' then some (c.toNat - 'a'.toNat + 10)
  else none

def isDigit (c : Char) : Bool := (digitValue? c).isSome

/-- The last `width` digits of `n`, most significant first. -/
def lastDigits : (width n : Nat) → List Nat
  | 0, _ => []
  | width + 1, n => lastDigits width (n / 16) ++ [n % 16]

/-- How many digits `n` needs; 0 needs one. -/
def width (n : Nat) : Nat := Nat.log2 n / 4 + 1

/-- At least `least` digits, in upper case. -/
def fixed (least n : Nat) : List Char :=
  (lastDigits (max least (width n)) n).map digit

/-- The digits `n` needs, in lower case. -/
def lower (n : Nat) : List Char := (lastDigits (width n) n).map lowerDigit

/-- The number that the digits denote behind those of `acc`. -/
def valueFrom (acc : Nat) : List Char → Option Nat
  | [] => some acc
  | c :: cs =>
      match digitValue? c with
      | some d => valueFrom (16 * acc + d) cs
      | none => none

/-- The number that hexadecimal digits denote, in any number of digits. -/
def value? (cs : List Char) : Option Nat := valueFrom 0 cs

theorem length_lastDigits (width n : Nat) : (lastDigits width n).length = width := by
  induction width generalizing n with
  | zero => rfl
  | succ width ih => simp [lastDigits, ih]

theorem lt_of_mem_lastDigits {width n d : Nat} (h : d ∈ lastDigits width n) : d < 16 := by
  induction width generalizing n with
  | zero => simp [lastDigits] at h
  | succ width ih =>
    rcases List.mem_append.1 h with h | h
    · exact ih h
    · simp only [List.mem_singleton] at h
      omega

theorem digitValue?_digit {n : Nat} (h : n < 16) : digitValue? (digit n) = some n := by
  revert n
  decide

theorem digitValue?_lt {c : Char} {d : Nat} (h : digitValue? c = some d) : d < 16 := by
  unfold digitValue? at h
  have toNat_le {a b : Char} (hab : a ≤ b) : a.toNat ≤ b.toNat := hab
  split at h
  · rename_i hc
    have := toNat_le hc.2
    simp at h this
    omega
  split at h
  · rename_i hc
    have := toNat_le hc.2
    simp at h this
    omega
  split at h
  · rename_i hc
    have := toNat_le hc.2
    simp at h this
    omega
  · simp at h

theorem valueFrom_lt {acc v : Nat} {cs : List Char} (h : valueFrom acc cs = some v) :
    v < (acc + 1) * Nat.pow 16 cs.length := by
  induction cs generalizing acc with
  | nil =>
    simp only [valueFrom, Option.some.injEq] at h
    simp [h]
  | cons c cs ih =>
    unfold valueFrom at h
    split at h
    · rename_i d hd
      have hlt := digitValue?_lt hd
      have hv := ih h
      calc v < (16 * acc + d + 1) * Nat.pow 16 cs.length := hv
        _ ≤ ((acc + 1) * 16) * Nat.pow 16 cs.length := Nat.mul_le_mul_right _ (by omega)
        _ = (acc + 1) * Nat.pow 16 (c :: cs).length := by
          show _ = (acc + 1) * (Nat.pow 16 cs.length * 16)
          rw [Nat.mul_assoc, Nat.mul_comm 16]
    · simp at h

theorem value?_lt {v : Nat} {cs : List Char} (h : value? cs = some v) :
    v < Nat.pow 16 cs.length := by
  have := valueFrom_lt h
  omega

end MbsClient.Text.Hex
