import MbsClient.Model.Identifier
import MbsClient.Model.Priority
import MbsClient.Proofs.Text.Decimal
import MbsClient.Proofs.Text.Hex

/-!
# Values written as texts — what is written reads back

Identifiers and reservation priorities each have a text of their own. Reading it gives the value
back, so the text also tells values apart.
-/

namespace MbsClient

open Text

/-! ## 1. Identifiers -/

theorem FixedHex.parse_text (field : String) {digits v : Nat} (hpos : 0 < digits)
    (hle : digits ≤ 16) (hv : v < 16 ^ digits) :
    FixedHex.parse field digits (FixedHex.text digits v) = .ok v := by
  have hsize : v < UInt64.size := Nat.lt_of_lt_of_le hv (Nat.pow_le_pow_right (by decide) hle)
  have hlength := Hex.length_fixed hpos hv
  simp only [parse, text, String.toList_ofList, hlength, Hex.value?_fixed]
  rw [if_neg (by omega), if_neg (by omega), if_pos hsize]

/-- Kinds that have a text of 1 to 16 digits and a word that holds what these denote. -/
class IdentifierKind.Printed (k : IdentifierKind) : Prop where
  digits_pos : 0 < k.digits
  digits_le : k.digits ≤ 16
  bits_le : k.bits ≤ k.word

instance : IdentifierKind.nrCellId.Printed := ⟨by decide, by decide, by decide⟩
instance : IdentifierKind.nid.Printed := ⟨by decide, by decide, by decide⟩
instance : IdentifierKind.fsaId.Printed := ⟨by decide, by decide, by decide⟩
instance : IdentifierKind.tac.Printed := ⟨by decide, by decide, by decide⟩

theorem IdentifierKind.max_lt (k : IdentifierKind) [hk : k.Printed] : k.max < 2 ^ k.word := by
  calc k.max < 2 ^ k.bits := Nat.sub_lt (Nat.pow_pos (by decide)) Nat.one_pos
    _ ≤ 2 ^ k.word := Nat.pow_le_pow_right (by decide) hk.bits_le

theorem IdentifierKind.narrow_eq_self {k : IdentifierKind} [k.Printed] {v : Nat} (h : v ≤ k.max) :
    k.narrow v = v :=
  Nat.mod_eq_of_lt (Nat.lt_of_le_of_lt h k.max_lt)

theorem Identifier.parse_text {k : IdentifierKind} [hk : k.Printed] (i : Identifier k) :
    Identifier.parse k i.text = .ok i := by
  have hparse :=
    FixedHex.parse_text k.field hk.digits_pos hk.digits_le (k.le_max_iff.1 i.value_le)
  unfold parse
  split
  · rename_i v hv
    rw [text, hparse] at hv
    obtain rfl := Except.ok.inj hv
    simp only [IdentifierKind.narrow_eq_self i.value_le]
  · rename_i fault hfault
    rw [text, hparse] at hfault
    cases hfault

/-! ## 2. Reservation priorities -/

theorem ReservationPriority.level?_text (p : ReservationPriority) :
    level? p.text = some p.level := by
  have hchars : p.text.toList = "PRIO_".toList ++ Decimal.digits p.level := by
    unfold text
    exact String.toList_ofList
  have hafter := afterStart?_eq_some_iff.2 hchars
  have hlt : p.level < 256 := Nat.lt_of_le_of_lt p.level_le (by decide)
  have hsign : ∀ rest, Decimal.digits p.level ≠ '+' :: rest := by
    intro rest hrest
    exact Decimal.not_mem_digits (c := '+') rfl p.level (hrest ▸ List.mem_cons_self)
  rw [level?, hafter, Option.bind_eq_bind, Option.bind_some]
  split
  · rename_i rest hrest
    exact absurd hrest (hsign rest)
  · rw [Decimal.value?_digits, Option.bind_eq_bind, Option.bind_some, if_pos hlt]

theorem ReservationPriority.parse_text (p : ReservationPriority) :
    ReservationPriority.parse p.text = .ok p := by
  have hlevel : ¬ p.level = 0 := Nat.ne_of_gt p.level_pos
  simp only [parse, level?_text, ofLevel, if_neg hlevel, p.level_pos, p.level_le, and_self,
    dif_pos]

end MbsClient
