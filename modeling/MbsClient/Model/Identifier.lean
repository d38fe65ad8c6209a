import MbsClient.Codec.Source
import MbsClient.Patch.Difference

/-!
# Identifiers — numbers written as hexadecimal digits of fixed width (TS 29.571)

The range of an identifier is given by its bits, the width of its text by its digits. The two agree
(`IdentifierKind.le_max_iff`), so a text of the right width never denotes a number above the range
and reading needs no check of it.
-/

namespace MbsClient

open Text

namespace FixedHex

/-- A number in at least `digits` upper-case digits. -/
def text (digits value : Nat) : String := String.ofList (Hex.fixed digits value)

/-- The number of exactly `digits` digits, in 64 bits. -/
def parse (field : String) (digits : Nat) (s : String) : Except ValueFault Nat :=
  let cs := s.toList
  if cs.length ≠ digits then .error (.hexDigits field digits s)
  else
    match Hex.value? cs with
    | none => .error (.hexDigits field digits s)
    | some v =>
        if digits = 0 then .error (.hexEmpty field)
        else if v < UInt64.size then .ok v
        else .error (.hexOverflow field)

theorem lt_of_parse_eq_ok {field : String} {digits v : Nat} {s : String}
    (h : parse field digits s = .ok v) : v < Nat.pow 16 digits := by
  unfold parse at h
  simp only at h
  split at h
  · simp at h
  · rename_i hlen
    split at h
    · simp at h
    · rename_i w hw
      have hlt := Hex.value?_lt hw
      split at h
      · simp at h
      split at h
      · simp only [Except.ok.injEq] at h
        subst h
        simpa [Decidable.not_not.1 hlen] using hlt
      · simp at h

end FixedHex

/-- A kind of identifier: how many bits the word has that holds it, how many of these it uses, how
many digits it is written in, and the member it is reported under. -/
structure IdentifierKind where
  word : Nat
  bits : Nat
  digits : Nat
  field : String
  /-- A digit stands for four bits. -/
  bits_eq : bits = 4 * digits

namespace IdentifierKind

/-- NR cell identity. -/
def nrCellId : IdentifierKind := ⟨64, 36, 9, "nrCellId", rfl⟩

/-- Network identifier. -/
def nid : IdentifierKind := ⟨64, 44, 11, "nid", rfl⟩

/-- MBS frequency selection area. -/
def fsaId : IdentifierKind := ⟨32, 24, 6, "mbsFsaId", rfl⟩

/-- Tracking area code. -/
def tac : IdentifierKind := ⟨32, 24, 6, "tac", rfl⟩

/-- The largest value that the bits hold. -/
def max (k : IdentifierKind) : Nat := Nat.pow 2 k.bits - 1

-- The bits hold what the digits can denote, and no more.
theorem le_max_iff (k : IdentifierKind) {value : Nat} :
    value ≤ k.max ↔ value < Nat.pow 16 k.digits := by
  have hpow : Nat.pow 2 k.bits = Nat.pow 16 k.digits := by
    rw [k.bits_eq]
    exact Nat.pow_mul 2 4 k.digits
  have hpos : 0 < Nat.pow 16 k.digits := Nat.pow_pos (by decide)
  rw [max, hpow]
  omega

/-- What a word of the kind keeps of a number: its low bits. -/
def narrow (k : IdentifierKind) (value : Nat) : Nat := value % Nat.pow 2 k.word

theorem narrow_le (k : IdentifierKind) (value : Nat) : k.narrow value ≤ value := Nat.mod_le ..

end IdentifierKind

structure Identifier (k : IdentifierKind) where
  value : Nat
  value_le : value ≤ k.max
deriving DecidableEq, Repr

abbrev NrCellId := Identifier .nrCellId
abbrev Nid := Identifier .nid
abbrev FsaId := Identifier .fsaId
abbrev Tac := Identifier .tac

namespace Identifier

variable {k : IdentifierKind}

/-- Values wider than the field are refused. -/
def ofNat (k : IdentifierKind) (value : Nat) : Except ValueFault (Identifier k) :=
  if h : value ≤ k.max then .ok ⟨value, h⟩ else .error (.tooWide k.field value k.bits)

def text (i : Identifier k) : String := FixedHex.text k.digits i.value

def parse (k : IdentifierKind) (s : String) : Except ValueFault (Identifier k) :=
  match h : FixedHex.parse k.field k.digits s with
  | .ok v =>
      have hv : v ≤ k.max := k.le_max_iff.2 (FixedHex.lt_of_parse_eq_ok h)
      .ok ⟨k.narrow v, Nat.le_trans (k.narrow_le v) hv⟩
  | .error fault => .error fault

instance : KeyOrder (Identifier k) :=
  .comap value fun ⟨_, _⟩ ⟨_, _⟩ h => by cases h; rfl

instance : Inhabited (Identifier k) := ⟨⟨0, Nat.zero_le _⟩⟩

instance : Encode (Identifier k) := ⟨fun i => .string i.text⟩

instance : Decode (Identifier k) where
  decode d := do
    let s : String ← decode d
    (parse k s).mapError .value

instance : Diff (Identifier k) := ⟨Diff.scalar⟩

end Identifier

end MbsClient
