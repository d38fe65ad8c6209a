import Mathlib.Data.List.TakeWhile
import MbsClient.Proofs.Text.Blank
import MbsClient.Proofs.Text.Decimal
import MbsClient.Proofs.Time.Calendar
import MbsClient.Time.Instant

/-!
# Instant round trip — the text of an instant reads back as the instant

Reading takes the fields off the text one after another; each lemma says what one of them leaves.
-/

namespace MbsClient.Time.Instant

open Text

/-! ## 1. Fields -/

theorem trimStart_digits {ds : List Char} (hds : ds.all Char.isDigit = true) (hne : ds ≠ [])
    (rest : List Char) : trimStart (ds ++ rest) = ds ++ rest := by
  obtain ⟨c, cs, rfl⟩ := List.exists_cons_of_ne_nil hne
  exact trimStart_cons (isBlank_of_isDigit (List.all_eq_true.1 hds c List.mem_cons_self)) _

theorem field?_padded {width n : Nat} (hwidth : 0 < width) (hn : n < 10 ^ width)
    (rest : List Char) : field? width (Decimal.padded width n ++ rest) = some (n, rest) := by
  have hdigits := Decimal.all_isDigit_padded width n
  have hlength := Decimal.length_padded hwidth hn
  have htaken : ((Decimal.padded width n ++ rest).take width).takeWhile Char.isDigit =
      Decimal.padded width n := by
    rw [List.take_left' hlength]
    exact List.takeWhile_eq_self_iff.2 (List.all_eq_true.1 hdigits)
  unfold field?
  rw [trimStart_digits hdigits (Decimal.padded_ne_nil _ _)]
  simp only [htaken]
  rw [if_neg (by simp [Decimal.padded_ne_nil]), List.drop_left, Decimal.value_padded]

theorem mark?_cons {c : Char} (hc : isBlank c = false) (rest : List Char) :
    mark? c (c :: rest) = some rest := by
  rw [mark?, trimStart_cons hc]
  simp

theorem signed_append {ds rest : List Char} (hds : ds.all Char.isDigit = true) (hne : ds ≠ [])
    (hrest : Decimal.Stops rest) :
    year?.signed (ds ++ rest) = some (Decimal.value ds, rest) := by
  unfold year?.signed
  simp only [Decimal.takeWhile_isDigit hds hrest]
  rw [if_neg (by simpa using hne), List.drop_left]

theorem year?_yearChars (year : Int) {rest : List Char} (hrest : Decimal.Stops rest) :
    year? (yearChars year ++ rest) = some (year, rest) := by
  unfold yearChars
  split
  case isTrue hbelow =>
    rw [List.cons_append, year?, trimStart_cons (by decide)]
    simp only [signed_append (Decimal.all_isDigit_padded _ _) (Decimal.padded_ne_nil _ _) hrest,
      Decimal.value_padded]
    simp only [Option.bind_eq_bind, Option.bind_some, Option.pure_def, Option.some.injEq,
      Prod.mk.injEq, and_true]
    omega
  case isFalse hnonneg =>
    split
    case isTrue habove =>
      rw [List.cons_append, year?, trimStart_cons (by decide)]
      simp only [signed_append (Decimal.all_isDigit_digits _) (Decimal.digits_ne_nil _) hrest,
        Decimal.value_digits]
      simp only [Option.bind_eq_bind, Option.bind_some, Option.pure_def, Option.some.injEq,
        Prod.mk.injEq, and_true]
      omega
    case isFalse hfour =>
      have hfield : field? 4 (Decimal.padded 4 year.natAbs ++ rest) = some (year.natAbs, rest) :=
        field?_padded (by decide) (by omega) rest
      obtain ⟨c, cs, hcs⟩ := List.exists_cons_of_ne_nil (Decimal.padded_ne_nil 4 year.natAbs)
      have hc : c.isDigit = true :=
        Decimal.isDigit_of_mem_padded (hcs ▸ List.mem_cons_self : c ∈ Decimal.padded 4 year.natAbs)
      rw [hcs, List.cons_append] at hfield ⊢
      rw [year?, trimStart_cons (isBlank_of_isDigit hc)]
      split
      case h_1 heq =>
        rw [(List.cons.inj heq).1] at hc
        cases hc
      case h_2 heq =>
        rw [(List.cons.inj heq).1] at hc
        cases hc
      case h_3 =>
        simp only [hfield, Option.bind_eq_bind, Option.bind_some, Option.pure_def,
          Option.some.injEq, Prod.mk.injEq, and_true]
        omega

theorem fraction?_fractionChars {nanos : Nat} (h : nanos < 1000000000) {rest : List Char}
    (hrest : Decimal.Stops rest) (hpoint : rest.head? ≠ some '.') :
    fraction? (fractionChars nanos ++ rest) = some (nanos, rest) := by
  -- a fraction of `width` digits
  have hread : ∀ width part, 0 < width → width ≤ 9 → part < 10 ^ width →
      fraction? ('.' :: Decimal.padded width part ++ rest) =
        some (part * 10 ^ (9 - width), rest) := by
    intro width part hwidth hnine hpart
    have hlength := Decimal.length_padded hwidth hpart
    rw [List.cons_append, fraction?]
    simp only [Decimal.takeWhile_isDigit (Decimal.all_isDigit_padded width part) hrest]
    rw [if_neg (by simp [Decimal.padded_ne_nil]), List.take_of_length_le (by omega),
      Decimal.value_padded, List.drop_left, hlength]
    rfl
  unfold fractionChars
  split
  case isTrue hzero =>
    subst hzero
    cases rest with
    | nil => rfl
    | cons c rest =>
      rw [List.nil_append, fraction?]
      rintro rest' heq
      exact hpoint (by rw [heq]; rfl)
  case isFalse =>
    split
    case isTrue hthree =>
      rw [hread 3 _ (by decide) (by decide) (by omega)]
      congr 2
      omega
    case isFalse =>
      split
      case isTrue hsix =>
        rw [hread 6 _ (by decide) (by decide) (by omega)]
        congr 2
        omega
      case isFalse =>
        rw [hread 9 _ (by decide) (by decide) (by omega)]
        congr 2
        omega

/-! ## 2. The whole text -/

-- In a leap second the last second of the minute is written as 60.
theorem of?_parts (t : Instant) :
    of? (Date.ofDays (t.seconds / 86400)) ((t.seconds % 86400).toNat / 3600)
      ((t.seconds % 86400).toNat / 60 % 60)
      ((t.seconds % 86400).toNat % 60 + t.nanos / 1000000000) (t.nanos % 1000000000) 0 =
      some t := by
  obtain ⟨seconds, nanos, hrange, hnanos⟩ := t
  dsimp only
  obtain ⟨time, htime⟩ : ∃ time : Nat, time = (seconds % 86400).toNat := ⟨_, rfl⟩
  rw [← htime]
  have hsecond : time % 60 + nanos / 1000000000 ≤ 60 ∧
      (time % 60 + nanos / 1000000000 = 60 ↔ 1000000000 ≤ nanos) := by omega
  have hseconds : seconds / 86400 * 86400 + (time / 3600 * 3600 + time / 60 % 60 * 60 +
      min (time % 60 + nanos / 1000000000) 59 : Nat) - 0 * 60 = seconds := by omega
  have hleap : nanos % 1000000000 +
      (if time % 60 + nanos / 1000000000 = 60 then 1000000000 else 0) = nanos := by
    split <;> omega
  unfold of?
  simp only [Date.toDays_ofDays, hseconds, hleap]
  rw [dif_pos]
  exact ⟨Date.isValid_ofDays _, hrange, by omega, by omega, hsecond.1, by omega, by decide,
    by decide, hrange⟩

theorem parse?_text (t : Instant) : parse? t.text = some t := by
  have hdate := Date.isValid_ofDays (t.seconds / 86400)
  have hparts := of?_parts t
  unfold text parse?
  rw [String.toList_ofList]
  generalize Date.ofDays (t.seconds / 86400) = date at *
  have hmonth : date.month < 10 ^ 2 ∧ date.day < 10 ^ 2 := by
    simp only [Date.isValid, Date.daysInMonth, Bool.and_eq_true, decide_eq_true_eq] at hdate
    grind
  have htime : (t.seconds % 86400).toNat / 3600 < 10 ^ 2 ∧
      (t.seconds % 86400).toNat / 60 % 60 < 10 ^ 2 ∧
      (t.seconds % 86400).toNat % 60 + t.nanos / 1000000000 < 10 ^ 2 := by
    have := t.nanos_lt
    omega
  have hdash : isBlank '-' = false := by decide
  have hcolon : isBlank ':' = false := by decide
  have hend : Decimal.Stops ['Z'] := by simp [Decimal.Stops]
  simp only [List.append_assoc, List.cons_append]
  refine Option.bind_eq_some_iff.2 ⟨_, year?_yearChars _ (by simp [Decimal.Stops]), ?_⟩
  refine Option.bind_eq_some_iff.2 ⟨_, mark?_cons hdash _, ?_⟩
  refine Option.bind_eq_some_iff.2 ⟨_, field?_padded (by decide) hmonth.1 _, ?_⟩
  refine Option.bind_eq_some_iff.2 ⟨_, mark?_cons hdash _, ?_⟩
  refine Option.bind_eq_some_iff.2 ⟨_, field?_padded (by decide) hmonth.2 _, ?_⟩
  refine Option.bind_eq_some_iff.2 ⟨_, (rfl : timeMark? ('T' :: _) = _), ?_⟩
  refine Option.bind_eq_some_iff.2 ⟨_, field?_padded (by decide) htime.1 _, ?_⟩
  refine Option.bind_eq_some_iff.2 ⟨_, mark?_cons hcolon _, ?_⟩
  refine Option.bind_eq_some_iff.2 ⟨_, field?_padded (by decide) htime.2.1 _, ?_⟩
  refine Option.bind_eq_some_iff.2 ⟨_, mark?_cons hcolon _, ?_⟩
  refine Option.bind_eq_some_iff.2 ⟨_, field?_padded (by decide) htime.2.2 _, ?_⟩
  refine Option.bind_eq_some_iff.2
    ⟨_, fraction?_fractionChars (Nat.mod_lt _ (by decide)) hend (by decide), ?_⟩
  exact hparts

end MbsClient.Time.Instant
