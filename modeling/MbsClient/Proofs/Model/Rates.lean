import Mathlib.Algebra.Order.Floor.Semifield
import Mathlib.Data.List.TakeWhile
import Mathlib.Data.Rat.Floor
import Mathlib.Tactic.FieldSimp
import MbsClient.Model.BitRate
import MbsClient.Proofs.Text.Blank
import MbsClient.Proofs.Text.Decimal

/-!
# Bit rates as texts — what a text says, and which texts are read

A `Spelling` is a number in a unit as it may be written, and `rate` the rational number of bits per
second that it says. Reading drops what lies below one bit per second: it gives the floor of that
number, or fails where 64 bits do not hold it. Writing spells the number exactly.
-/

namespace MbsClient.BitRate

open Text

/-! ## 1. Decimals -/

/-- What digits behind a point say. -/
def fraction (ds : List Char) : ℚ := Decimal.value ds / 10 ^ ds.length

theorem fraction_append_zeros (ds : List Char) (k : Nat) :
    fraction (ds ++ List.replicate k '0') = fraction ds := by
  rw [fraction, Decimal.value_append, Decimal.value_replicate_zero, Nat.add_zero,
    List.length_append, List.length_replicate, pow_add, fraction]
  push_cast
  exact mul_div_mul_right _ _ (by positivity)

theorem exists_zeros (ds : List Char) :
    ∃ k, ds = (ds.reverse.dropWhile (· == '0')).reverse ++ List.replicate k '0' := by
  refine ⟨(ds.reverse.takeWhile (· == '0')).length, ?_⟩
  have hzeros : ds.reverse.takeWhile (· == '0') =
      List.replicate (ds.reverse.takeWhile (· == '0')).length '0' := by
    refine List.eq_replicate_of_mem fun c hc => ?_
    simpa using List.mem_takeWhile_imp hc
  have hsplit := congrArg List.reverse
    (List.takeWhile_append_dropWhile (p := (· == '0')) (l := ds.reverse))
  rw [List.reverse_append, List.reverse_reverse, hzeros, List.reverse_replicate] at hsplit
  exact hsplit.symm

theorem fraction_trimmed (ds : List Char) :
    fraction (ds.reverse.dropWhile (· == '0')).reverse = fraction ds := by
  obtain ⟨k, hk⟩ := exists_zeros ds
  conv_rhs => rw [hk]
  exact (fraction_append_zeros _ k).symm

/-- What decimals add to a rate; what is less than one bit per second adds nothing. -/
def decimalsValue : (place : Nat) → List Char → Nat
  | _, [] => 0
  | place, c :: rest =>
      if place / 10 = 0 then 0
      else (c.toNat - '0'.toNat) * (place / 10) + decimalsValue (place / 10) rest

-- Cutting off digit by digit is cutting off at the end.
theorem decimalsValue_pow {ds : List Char} (h : ds.all Char.isDigit = true) (k : Nat) :
    decimalsValue (10 ^ k) ds = Decimal.value ds * 10 ^ k / 10 ^ ds.length := by
  induction ds generalizing k with
  | nil => simp [decimalsValue, Decimal.value, Nat.ofDigitChars_nil]
  | cons c ds ih =>
    cases k with
    | zero =>
      rw [decimalsValue, if_pos (by decide), pow_zero, Nat.mul_one]
      exact (Nat.div_eq_of_lt (Decimal.value_lt h)).symm
    | succ k =>
      simp only [List.all_cons, Bool.and_eq_true] at h
      have htenth : 10 ^ (k + 1) / 10 = 10 ^ k := by
        rw [pow_succ, Nat.mul_div_cancel _ (by decide)]
      have hpos : 0 < 10 ^ k := Nat.pow_pos (by decide)
      rw [decimalsValue, htenth, if_neg (Nat.ne_of_gt hpos), ih h.2, Decimal.value_cons,
        List.length_cons]
      generalize c.toNat - '0'.toNat = d
      calc d * 10 ^ k + Decimal.value ds * 10 ^ k / 10 ^ ds.length
          = (Decimal.value ds * 10 ^ k + d * 10 ^ k * 10 ^ ds.length) / 10 ^ ds.length := by
            rw [Nat.add_mul_div_right _ _ (Nat.pow_pos (by decide)), Nat.add_comm]
        _ = (d * 10 ^ ds.length + Decimal.value ds) * 10 ^ k * 10 / (10 ^ ds.length * 10) := by
            rw [Nat.mul_div_mul_right _ _ (by decide)]
            ring_nf
        _ = (d * 10 ^ ds.length + Decimal.value ds) * 10 ^ (k + 1) / 10 ^ (ds.length + 1) := by
            rw [pow_succ, pow_succ, Nat.mul_assoc]

/-! ## 2. Units -/

variable {scale : Nat} {unit : String}

theorem exists_pow_of_mem_rateUnits (h : (scale, unit) ∈ rateUnits) : ∃ k, scale = 10 ^ k := by
  have hall : ∀ u ∈ rateUnits, ∃ k < 13, u.1 = 10 ^ k := by decide
  obtain ⟨k, -, hk⟩ := hall _ h
  exact ⟨k, hk⟩

theorem find?_rateUnits (h : (scale, unit) ∈ rateUnits) :
    (rateUnits.find? fun u => u.2.toList = unit.toList) = some (scale, unit) := by
  have hall : ∀ u ∈ rateUnits, (rateUnits.find? fun v => v.2.toList = u.2.toList) = some u := by
    decide
  exact hall _ h

theorem exists_last_of_mem_rateUnits (h : (scale, unit) ∈ rateUnits) :
    ∃ cs d, unit.toList = cs ++ [d] ∧ isBlank d = false := by
  have hall : ∀ u ∈ rateUnits,
      ∃ hne : u.2.toList ≠ [], isBlank (u.2.toList.getLast hne) = false := by
    decide
  obtain ⟨hne, hblank⟩ := hall _ h
  exact ⟨_, _, (List.dropLast_append_getLast hne).symm, hblank⟩

/-! ## 3. Spellings -/

/-- A number in a unit, as it is written: digits, perhaps a point and more digits, and behind one
space the unit. There may be any number of digits, also none behind the point. -/
structure Spelling where
  whole : List Char
  /-- What stands behind the point, if there is one. -/
  decimals? : Option (List Char)
  scale : Nat
  unit : String
  whole_ne_nil : whole ≠ []
  isDigit_whole : whole.all Char.isDigit = true
  isDigit_decimals : (decimals?.getD []).all Char.isDigit = true
  mem_units : (scale, unit) ∈ rateUnits

namespace Spelling

def decimals (p : Spelling) : List Char := p.decimals?.getD []

/-- The point and what stands behind it. -/
def behindWhole (p : Spelling) : List Char :=
  match p.decimals? with
  | none => []
  | some ds => '.' :: ds

def number (p : Spelling) : List Char := p.whole ++ p.behindWhole

def chars (p : Spelling) : List Char := p.number ++ ' ' :: p.unit.toList

/-- The bits per second that are said, which need not be whole. -/
def rate (p : Spelling) : ℚ := (Decimal.value p.whole + fraction p.decimals) * p.scale

/-- The text is the spelling, between blanks. -/
def Names (p : Spelling) (s : String) : Prop :=
  ∃ before after : List Char, before.all isBlank = true ∧ after.all isBlank = true ∧
    s.toList = before ++ p.chars ++ after

variable (p : Spelling)

theorem floor_rate :
    ⌊p.rate⌋₊ = Decimal.value p.whole * p.scale + decimalsValue p.scale p.decimals := by
  obtain ⟨k, hk⟩ := exists_pow_of_mem_rateUnits p.mem_units
  have hrate : p.rate = ((Decimal.value p.decimals * 10 ^ k +
      Decimal.value p.whole * 10 ^ k * 10 ^ p.decimals.length : ℕ) : ℚ) /
        (10 ^ p.decimals.length : ℕ) := by
    rw [rate, fraction, hk]
    push_cast
    field_simp
    ring
  have hdecimals : decimalsValue (10 ^ k) p.decimals =
      Decimal.value p.decimals * 10 ^ k / 10 ^ p.decimals.length :=
    decimalsValue_pow p.isDigit_decimals k
  rw [hrate, Nat.floor_div_eq_div, Nat.add_mul_div_right _ _ (Nat.pow_pos (by decide)), hk,
    hdecimals, Nat.add_comm]

theorem point_not_mem_whole : '.' ∉ p.whole := fun h =>
  absurd (List.all_eq_true.1 p.isDigit_whole _ h) (by decide)

theorem space_not_mem_number : ' ' ∉ p.number := by
  have hwhole : ' ' ∉ p.whole := fun h =>
    absurd (List.all_eq_true.1 p.isDigit_whole _ h) (by decide)
  have hdecimals : ' ' ∉ p.decimals := fun h =>
    absurd (List.all_eq_true.1 p.isDigit_decimals _ h) (by decide)
  unfold number behindWhole
  unfold decimals at hdecimals
  cases hp : p.decimals? with
  | none => simpa using hwhole
  | some ds => simpa [hp] using ⟨hwhole, by simpa [hp] using hdecimals⟩

theorem splitOnce_number : splitOnce '.' p.number = p.decimals?.map (p.whole, ·) := by
  unfold number behindWhole
  cases p.decimals? with
  | none => rw [List.append_nil, splitOnce_eq_none p.point_not_mem_whole, Option.map_none]
  | some ds => rw [splitOnce_append p.point_not_mem_whole, Option.map_some]

theorem splitOnce_number_getD :
    (splitOnce '.' p.number).getD (p.number, []) = (p.whole, p.decimals) := by
  rw [splitOnce_number]
  unfold number behindWhole decimals
  cases p.decimals? with
  | none => rw [List.append_nil, Option.map_none, Option.getD_none, Option.getD_none]
  | some ds => rfl

-- A text says one number only.
theorem chars_injective : Function.Injective chars := by
  intro p q h
  have hsplit := congrArg (splitOnce ' ') h
  rw [chars, chars, splitOnce_append p.space_not_mem_number,
    splitOnce_append q.space_not_mem_number, Option.some.injEq, Prod.mk.injEq] at hsplit
  obtain ⟨hnumber, hunit⟩ := hsplit
  have hunits : some (p.scale, p.unit) = some (q.scale, q.unit) := by
    rw [← find?_rateUnits p.mem_units, ← find?_rateUnits q.mem_units, hunit]
  have hparts := congrArg (splitOnce '.') hnumber
  rw [splitOnce_number, splitOnce_number] at hparts
  obtain ⟨whole, decimals?, scale, unit, _, _, _, _⟩ := p
  obtain ⟨whole', decimals?', scale', unit', _, _, _, _⟩ := q
  simp only [Option.some.injEq, Prod.mk.injEq] at hunits
  obtain ⟨rfl, rfl⟩ := hunits
  cases decimals? with
  | none =>
    cases decimals?' with
    | none => simpa [number, behindWhole] using hnumber
    | some ds' => cases hparts
  | some ds =>
    cases decimals?' with
    | none => cases hparts
    | some ds' => simpa using hparts

variable {p}

-- A digit comes first and a letter last.
theorem trim_of_names {s : String} (h : p.Names s) : trim s.toList = p.chars := by
  obtain ⟨before, after, hbefore, hafter, hs⟩ := h
  obtain ⟨c, rest, hc⟩ := List.exists_cons_of_ne_nil p.whole_ne_nil
  obtain ⟨cs, d, hd, hblank⟩ := exists_last_of_mem_rateUnits p.mem_units
  have hdigit : c.isDigit = true :=
    List.all_eq_true.1 p.isDigit_whole c (hc ▸ List.mem_cons_self)
  have hchars : p.chars = c :: (rest ++ p.behindWhole ++ ' ' :: cs) ++ [d] := by
    rw [chars, number, hc, hd]
    simp
  rw [hs, hchars]
  exact trim_between hbefore hafter (isBlank_of_isDigit hdigit) hblank _

theorem names_of_chars {s : String} (h : s.toList = p.chars) : p.Names s :=
  ⟨[], [], rfl, rfl, by rw [h, List.nil_append, List.append_nil]⟩

theorem names_of_trim {s : String} (h : trim s.toList = p.chars) : p.Names s := by
  obtain ⟨before, after, hbefore, hafter, hs⟩ := exists_trim s.toList
  exact ⟨before, after, hbefore, hafter, h ▸ hs⟩

theorem eq_of_names {q : Spelling} {s : String} (hp : p.Names s) (hq : q.Names s) : p = q :=
  chars_injective ((trim_of_names hp).symm.trans (trim_of_names hq))

end Spelling

/-! ## 4. Reading -/

theorem word?_of_lt {n : Nat} (h : n < UInt64.size) : word? n = some (UInt64.ofNat n) := if_pos h

theorem word?_toNat (w : UInt64) : word? w.toNat = some w := by
  rw [word?_of_lt w.toNat_lt, UInt64.ofNat_toNat]

-- What does not fit does not fit later on either, as `f` makes nothing smaller.
theorem bind_word? {n : Nat} {f : Nat → Nat} (hf : ∀ m, m ≤ f m) :
    ((word? n).bind fun w => word? (f w.toNat)) = word? (f n) := by
  by_cases h : n < UInt64.size
  · rw [word?_of_lt h, Option.bind_some, UInt64.toNat_ofNat_of_lt' h]
  · rw [word?, if_neg h, Option.bind_none, word?, if_neg fun hlt => h ((hf n).trans_lt hlt)]

-- The sum is taken digit by digit, but it fits exactly if all of it does.
theorem addDecimals?_eq (bps : UInt64) (place : Nat) (ds : List Char) :
    addDecimals? bps place ds = word? (bps.toNat + decimalsValue place ds) := by
  induction ds generalizing bps place with
  | nil => exact (word?_toNat bps).symm
  | cons c ds ih =>
    rw [addDecimals?, decimalsValue]
    split
    · exact (word?_toNat bps).symm
    · simp only [ih]
      rw [bind_word? (f := (· + decimalsValue (place / 10) ds)) fun m => Nat.le_add_right m _,
        Nat.add_assoc]

-- The three steps that may not fit come to one: the rate has to.
theorem ofParts?_of_isDigit {scale w : Nat} {whole decimals : List Char} (hscale : 0 < scale)
    (hwhole : Decimal.value? whole = some w) (hdecimals : decimals.all Char.isDigit = true) :
    ofParts? scale whole decimals =
      (word? (w * scale + decimalsValue scale decimals)).map mk := by
  have hadd : ∀ n, ((word? n).bind fun bps => addDecimals? bps scale decimals) =
      word? (n + decimalsValue scale decimals) := by
    intro n
    simp only [addDecimals?_eq]
    exact bind_word? (f := (· + decimalsValue scale decimals)) fun m => Nat.le_add_right m _
  have hmul : ((word? w).bind fun count =>
      word? (count.toNat * scale + decimalsValue scale decimals)) =
      word? (w * scale + decimalsValue scale decimals) :=
    bind_word? (f := fun m => m * scale + decimalsValue scale decimals) fun m =>
      (Nat.le_mul_of_pos_right m hscale).trans (Nat.le_add_right _ _)
  calc ofParts? scale whole decimals
      = (word? w).bind fun count => (word? (count.toNat * scale)).bind fun bps =>
          (addDecimals? bps scale decimals).map mk := by
        simp only [ofParts?, hwhole, hdecimals, if_true, Option.bind_eq_bind, Option.bind_some]
    _ = ((word? w).bind fun count => (word? (count.toNat * scale)).bind fun bps =>
          addDecimals? bps scale decimals).map mk := by
        simp only [Option.map_bind, Function.comp_def]
    _ = (word? (w * scale + decimalsValue scale decimals)).map mk := by
        simp only [hadd, hmul]

theorem isDigit_of_ofParts? {scale : Nat} {whole decimals : List Char} {r : BitRate}
    (h : ofParts? scale whole decimals = some r) :
    (∃ w, Decimal.value? whole = some w) ∧ decimals.all Char.isDigit = true := by
  simp only [ofParts?, Option.bind_eq_bind, Option.bind_eq_some_iff] at h
  obtain ⟨_, ⟨w, hw, -⟩, _, -, hif⟩ := h
  refine ⟨⟨w, hw⟩, ?_⟩
  by_contra hneg
  rw [if_neg hneg] at hif
  cases hif

theorem ofChars?_of_trim {cs : List Char} {p : Spelling} (h : trim cs = p.chars) :
    ofChars? cs = (word? ⌊p.rate⌋₊).map mk := by
  have hpos : 0 < p.scale := by
    obtain ⟨k, hk⟩ := exists_pow_of_mem_rateUnits p.mem_units
    exact hk ▸ Nat.pow_pos (by decide)
  have hwhole : Decimal.value? p.whole = some (Decimal.value p.whole) :=
    Decimal.value?_eq_some_iff.2 ⟨p.whole_ne_nil, p.isDigit_whole, rfl⟩
  have hdecimals : p.decimals.all Char.isDigit = true := p.isDigit_decimals
  rw [ofChars?, h, Spelling.chars, splitOnce_append p.space_not_mem_number, p.floor_rate,
    ← ofParts?_of_isDigit hpos hwhole hdecimals]
  simp only [Option.bind_eq_bind, Option.bind_some, find?_rateUnits p.mem_units,
    p.splitOnce_number_getD]

theorem exists_spelling_of_ofChars? {cs : List Char} {r : BitRate} (h : ofChars? cs = some r) :
    ∃ p : Spelling, trim cs = p.chars := by
  simp only [ofChars?, Option.bind_eq_bind, Option.bind_eq_some_iff] at h
  obtain ⟨⟨number, unit⟩, hspace, ⟨scale, word⟩, hfound, hparts⟩ := h
  obtain ⟨hcs, -⟩ := splitOnce_eq_some hspace
  have hword : word.toList = unit := by simpa using List.find?_some hfound
  have hmem := List.mem_of_find?_eq_some hfound
  obtain ⟨⟨w, hw⟩, hdecimals⟩ := isDigit_of_ofParts? hparts
  obtain ⟨hne, hwhole, -⟩ := Decimal.value?_eq_some_iff.1 hw
  subst hword
  cases hpoint : splitOnce '.' number with
  | none =>
    rw [hpoint] at hne hwhole
    exact ⟨⟨number, none, scale, word, hne, hwhole, rfl, hmem⟩, by
      rw [hcs, Spelling.chars, Spelling.number, Spelling.behindWhole, List.append_nil]⟩
  | some parts =>
    obtain ⟨whole, decimals⟩ := parts
    rw [hpoint] at hne hwhole hdecimals
    obtain ⟨hnumber, -⟩ := splitOnce_eq_some hpoint
    exact ⟨⟨whole, some decimals, scale, word, hne, hwhole, hdecimals, hmem⟩, by
      rw [hcs, hnumber]; rfl⟩

theorem parse_of_names {s : String} {p : Spelling} (h : p.Names s) :
    parse s =
      if ⌊p.rate⌋₊ < UInt64.size then .ok ⟨UInt64.ofNat ⌊p.rate⌋₊⟩ else .error (.bitRate s) := by
  rw [parse, ofChars?_of_trim (Spelling.trim_of_names h), word?]
  by_cases hlt : ⌊p.rate⌋₊ < UInt64.size
  · rw [if_pos hlt, if_pos hlt, Option.map_some]
  · rw [if_neg hlt, if_neg hlt, Option.map_none]

theorem exists_names_of_parse {s : String} {r : BitRate} (h : parse s = .ok r) :
    ∃ p : Spelling, p.Names s := by
  rw [parse] at h
  split at h
  · rename_i r' hr
    obtain ⟨p, hp⟩ := exists_spelling_of_ofChars? hr
    exact ⟨p, Spelling.names_of_trim hp⟩
  · cases h

theorem toNat_of_parse {s : String} {r : BitRate} (h : parse s = .ok r) {p : Spelling}
    (hp : p.Names s) : r.bps.toNat = ⌊p.rate⌋₊ := by
  rw [parse_of_names hp] at h
  split at h
  · rename_i hlt
    obtain rfl := Except.ok.inj h
    exact UInt64.toNat_ofNat_of_lt' hlt
  · cases h

/-- The texts that are read are the spellings, between blanks, of numbers whose floor 64 bits hold;
that floor is what is read. All other texts are malformed. -/
theorem parse_spelling (s : String) :
    ((∃ r, parse s = .ok r) ↔ ∃ p : Spelling, p.Names s ∧ ⌊p.rate⌋₊ ≤ 2 ^ 64 - 1) ∧
      (∀ r (p : Spelling), parse s = .ok r → p.Names s → r.bps.toNat = ⌊p.rate⌋₊) ∧
      ∀ fault, parse s = .error fault → fault = .bitRate s ∧
        fault.message = "Invalid value for bitRate: malformed bit rate '" ++ s ++ "'" := by
  refine ⟨⟨?_, ?_⟩, fun r p h hp => toNat_of_parse h hp, ?_⟩
  · rintro ⟨r, hr⟩
    obtain ⟨p, hp⟩ := exists_names_of_parse hr
    have hlt : r.bps.toNat < 2 ^ 64 := r.bps.toNat_lt
    rw [toNat_of_parse hr hp] at hlt
    exact ⟨p, hp, Nat.le_sub_one_of_lt hlt⟩
  · rintro ⟨p, hp, hle⟩
    have hlt : ⌊p.rate⌋₊ < UInt64.size := Nat.lt_of_le_sub_one (by decide) hle
    exact ⟨_, (parse_of_names hp).trans (if_pos hlt)⟩
  · intro fault h
    rw [parse] at h
    split at h
    · cases h
    · obtain rfl := Except.error.inj h
      exact ⟨rfl, rfl⟩

-- What is less than one bit per second makes no rate too large.
example : parse "\t18446744.0737095516159 Tbps\n" = .ok ⟨18446744073709551615⟩ := by decide

example : parse "18446744.073709551616 Tbps" = .error (.bitRate "18446744.073709551616 Tbps") := by
  decide

/-! ## 5. Writing -/

theorem step_rateUnits (h : (scale, unit) ∈ rateUnits) :
    scale = 1 ∨ 0 < step scale ∧ scale = 1000 * step scale := by
  have hall : ∀ u ∈ rateUnits, u.1 = 1 ∨ 0 < step u.1 ∧ u.1 = 1000 * step u.1 := by decide
  exact hall _ h

/-- A unit in which at most three decimals say the rate. -/
def ThreeDecimals (bps scale : Nat) : Prop := ∃ m : ℕ, (bps : ℚ) / scale = m / 1000

theorem threeDecimals_iff (h : (scale, unit) ∈ rateUnits) (bps : Nat) :
    ThreeDecimals bps scale ↔ bps % step scale = 0 := by
  rcases step_rateUnits h with rfl | ⟨hpos, hscale⟩
  · refine iff_of_true ⟨1000 * bps, ?_⟩ (Nat.mod_one bps)
    push_cast
    ring
  · have hne : (step scale : ℚ) ≠ 0 := by exact_mod_cast Nat.ne_of_gt hpos
    have hcast : (scale : ℚ) = 1000 * step scale := by exact_mod_cast hscale
    have hdiv : ∀ m : ℕ, (bps : ℚ) / scale = m / 1000 ↔ bps = m * step scale := by
      intro m
      rw [hcast, div_eq_div_iff (by positivity) (by norm_num), mul_left_comm, mul_comm (bps : ℚ),
        mul_right_inj' (by norm_num)]
      exact_mod_cast Iff.rfl
    rw [← Nat.dvd_iff_mod_eq_zero]
    constructor
    · rintro ⟨m, hm⟩
      exact ⟨m, ((hdiv m).1 hm).trans (Nat.mul_comm _ _)⟩
    · rintro ⟨m, hm⟩
      exact ⟨m, (hdiv m).2 (hm.trans (Nat.mul_comm _ _))⟩

/-- The decimals of a rate in a unit, without zeros at the end. -/
def trimmedDecimals (bps scale : Nat) : List Char :=
  ((Decimal.padded 3 (bps % scale / step scale)).reverse.dropWhile (· == '0')).reverse

theorem all_isDigit_trimmedDecimals (bps scale : Nat) :
    (trimmedDecimals bps scale).all Char.isDigit = true := by
  refine List.all_eq_true.2 fun c hc => ?_
  have hmem := (List.dropWhile_suffix _).subset (List.mem_reverse.1 hc)
  exact Decimal.isDigit_of_mem_padded (List.mem_reverse.1 hmem)

theorem getLast?_trimmedDecimals (bps scale : Nat) :
    (trimmedDecimals bps scale).getLast? ≠ some '0' := by
  intro hlast
  rw [trimmedDecimals, List.getLast?_reverse] at hlast
  have hhead := List.head?_dropWhile_not (· == '0')
    (Decimal.padded 3 (bps % scale / step scale)).reverse
  rw [hlast] at hhead
  exact absurd hhead (by decide)

theorem decimals_lt (h : (scale, unit) ∈ rateUnits) (bps : Nat) :
    bps % scale / step scale < 1000 := by
  rcases step_rateUnits h with rfl | ⟨hpos, hscale⟩
  · rw [Nat.mod_one, Nat.zero_div]
    decide
  · refine Nat.div_lt_of_lt_mul ?_
    rw [Nat.mul_comm, ← hscale]
    exact Nat.mod_lt _ (by omega)

theorem length_trimmedDecimals (h : (scale, unit) ∈ rateUnits) (bps : Nat) :
    (trimmedDecimals bps scale).length ≤ 3 := by
  have hlength : (Decimal.padded 3 (bps % scale / step scale)).length = 3 :=
    Decimal.length_padded (by decide) (decimals_lt h bps)
  have hsuffix := (List.dropWhile_suffix (· == '0')
    (l := (Decimal.padded 3 (bps % scale / step scale)).reverse)).length_le
  rw [List.length_reverse, hlength] at hsuffix
  rw [trimmedDecimals, List.length_reverse]
  exact hsuffix

theorem fraction_trimmedDecimals (h : (scale, unit) ∈ rateUnits) (bps : Nat) :
    fraction (trimmedDecimals bps scale) = (bps % scale / step scale : ℕ) / 1000 := by
  rw [trimmedDecimals, fraction_trimmed, fraction,
    Decimal.length_padded (by decide) (decimals_lt h bps), Decimal.value_padded]
  norm_num

theorem trimmedDecimals_ne_nil (h : (scale, unit) ∈ rateUnits) {bps : Nat}
    (hne : bps % scale / step scale ≠ 0) : trimmedDecimals bps scale ≠ [] := by
  intro hnil
  have hfraction := fraction_trimmedDecimals h bps
  rw [hnil, fraction] at hfraction
  exact hne (by simpa [Decimal.value, Nat.ofDigitChars_nil] using hfraction.symm)

/-- How a rate is written in a unit. -/
def spell (bps : Nat) (h : (scale, unit) ∈ rateUnits) : Spelling where
  whole := Decimal.digits (bps / scale)
  decimals? :=
    if bps % scale / step scale = 0 then none else some (trimmedDecimals bps scale)
  scale := scale
  unit := unit
  whole_ne_nil := Decimal.digits_ne_nil _
  isDigit_whole := Decimal.all_isDigit_digits _
  isDigit_decimals := by
    split
    · rfl
    · exact all_isDigit_trimmedDecimals bps scale
  mem_units := h

theorem inUnit_eq (bps : Nat) (h : (scale, unit) ∈ rateUnits) :
    inUnit bps scale unit = (spell bps h).chars := by
  unfold inUnit Spelling.chars Spelling.number Spelling.behindWhole
  by_cases hzero : bps % scale / step scale = 0
  · simp only [spell, if_pos hzero]
  · simp only [spell, if_neg hzero, trimmedDecimals]

theorem rate_spell {bps : Nat} (h : (scale, unit) ∈ rateUnits) (hfits : bps % step scale = 0) :
    (spell bps h).rate = bps := by
  have hfraction : fraction (spell bps h).decimals = (bps % scale / step scale : ℕ) / 1000 := by
    by_cases hzero : bps % scale / step scale = 0
    · simp [Spelling.decimals, spell, hzero, fraction, Decimal.value, Nat.ofDigitChars_nil]
    · simp only [Spelling.decimals, spell, if_neg hzero, Option.getD_some]
      exact fraction_trimmedDecimals h bps
  have hwhole : Decimal.value (spell bps h).whole = bps / scale := Decimal.value_digits _
  show (Decimal.value (spell bps h).whole + fraction (spell bps h).decimals) * scale = bps
  rw [hwhole, hfraction]
  have hparts : bps / scale * scale + bps % scale = bps := Nat.div_add_mod' bps scale
  rcases step_rateUnits h with rfl | ⟨hpos, hscale⟩
  · simp [Nat.mod_one]
  · -- a thousandth of the unit counts as often as the decimals say
    have hmod : bps % scale / step scale * step scale = bps % scale := by
      have hdvd : step scale ∣ scale := ⟨1000, by omega⟩
      refine Nat.div_mul_cancel (Nat.dvd_of_mod_eq_zero ?_)
      rw [Nat.mod_mod_of_dvd _ hdvd, hfits]
    have hcast : (scale : ℚ) = 1000 * step scale := by exact_mod_cast hscale
    calc ((bps / scale : ℕ) + ((bps % scale / step scale : ℕ) : ℚ) / 1000) * scale
        = (bps / scale : ℕ) * scale + (bps % scale / step scale : ℕ) * step scale := by
          rw [add_mul]
          congr 1
          rw [hcast]
          ring
      _ = bps := by exact_mod_cast hmod ▸ hparts

/-- The largest unit that is not above the rate and in which at most three decimals say it. -/
structure LargestUnit (bps scale : Nat) : Prop where
  le : scale ≤ bps
  decimals : ThreeDecimals bps scale
  largest : ∀ u ∈ rateUnits, u.1 ≤ bps → ThreeDecimals bps u.1 → u.1 ≤ scale

theorem fits_iff (h : (scale, unit) ∈ rateUnits) (bps : Nat) :
    fits bps scale = true ↔ scale ≤ bps ∧ ThreeDecimals bps scale := by
  rw [threeDecimals_iff h]
  simp [fits]

-- The units come in descending order, so the first that fits is the largest.
theorem largestUnit_of_find? {bps : Nat}
    (h : (rateUnits.find? fun u => fits bps u.1) = some (scale, unit)) :
    LargestUnit bps scale := by
  have hsorted : rateUnits.Pairwise fun u v => v.1 < u.1 := by decide
  have hmem := List.mem_of_find?_eq_some h
  obtain ⟨hfits, before, after, hunits, hbefore⟩ := List.find?_eq_some_iff_append.1 h
  obtain ⟨hle, hdecimals⟩ := (fits_iff hmem bps).1 hfits
  refine ⟨hle, hdecimals, fun u hu hule hudecimals => ?_⟩
  have hufits : fits bps u.1 = true := (fits_iff hu bps).2 ⟨hule, hudecimals⟩
  rw [hunits] at hu hsorted
  rcases List.mem_append.1 hu with hu | hu
  · have hnot := hbefore u hu
    rw [hufits] at hnot
    cases hnot
  · rcases List.mem_cons.1 hu with rfl | hu
    · exact Nat.le_refl _
    · have hsmaller := (List.pairwise_cons.1 (List.pairwise_append.1 hsorted).2.1).1 u hu
      exact Nat.le_of_lt hsmaller

theorem exists_spell_text (r : BitRate) :
    ∃ (scale : Nat) (unit : String) (h : (scale, unit) ∈ rateUnits),
      r.text.toList = (spell r.bps.toNat h).chars ∧ r.bps.toNat % step scale = 0 ∧
        (r.bps ≠ 0 → LargestUnit r.bps.toNat scale) := by
  cases hfound : rateUnits.find? fun u => fits r.bps.toNat u.1 with
  | some u =>
    obtain ⟨scale, unit⟩ := u
    have hmem := List.mem_of_find?_eq_some hfound
    have hlargest := largestUnit_of_find? hfound
    refine ⟨scale, unit, hmem, ?_, (threeDecimals_iff hmem _).1 hlargest.decimals,
      fun _ => hlargest⟩
    rw [← inUnit_eq _ hmem]
    simp only [text, hfound, String.toList_ofList]
  | none =>
    -- every rate but zero is a number of bits per second
    have hmem : (1, "bps") ∈ rateUnits := by decide
    have hnot := List.find?_eq_none.1 hfound _ hmem
    have hzero : r.bps = 0 := by
      rw [← UInt64.toNat_inj]
      have hone : step 1 = 1 := rfl
      simp only [fits, hone, Nat.mod_one, Bool.and_eq_true, decide_eq_true_eq, and_true] at hnot
      exact Nat.lt_one_iff.1 (Nat.not_le.1 hnot)
    refine ⟨1, "bps", hmem, ?_, Nat.mod_one _, fun hne => absurd hzero hne⟩
    rw [← inUnit_eq _ hmem, hzero]
    simp only [text, hfound]
    rfl

theorem parse_text (r : BitRate) : parse r.text = .ok r := by
  obtain ⟨scale, unit, h, htext, hfits, -⟩ := exists_spell_text r
  rw [parse_of_names (Spelling.names_of_chars htext), rate_spell h hfits, Nat.floor_natCast,
    if_pos r.bps.toNat_lt, UInt64.ofNat_toNat]

/-- Rates are written exactly, in the largest unit that is not above them and needs at most three
decimals, without zeros at the end of these. The text says no other number, and reads back. -/
theorem text_exact :
    (∀ r : BitRate, parse r.text = .ok r ∧ ∃ p : Spelling,
      r.text.toList = p.chars ∧ (∀ q : Spelling, q.Names r.text → q = p) ∧
      p.rate = r.bps.toNat ∧ (r.bps ≠ 0 → LargestUnit r.bps.toNat p.scale) ∧
      ∀ ds, p.decimals? = some ds → ds ≠ [] ∧ ds.length ≤ 3 ∧ ds.getLast? ≠ some '0') ∧
    text ⟨0⟩ = "0 bps" ∧ Function.Injective text := by
  refine ⟨fun r => ⟨parse_text r, ?_⟩, rfl, fun a b hab => ?_⟩
  · obtain ⟨scale, unit, h, htext, hfits, hlargest⟩ := exists_spell_text r
    refine ⟨spell r.bps.toNat h, htext,
      fun q hq => Spelling.eq_of_names hq (Spelling.names_of_chars htext), rate_spell h hfits,
      hlargest, fun ds hds => ?_⟩
    simp only [spell, Option.ite_none_left_eq_some, Option.some.injEq] at hds
    obtain ⟨hzero, rfl⟩ := hds
    exact ⟨trimmedDecimals_ne_nil h hzero, length_trimmedDecimals h _,
      getLast?_trimmedDecimals _ _⟩
  · have ha := parse_text a
    rw [hab, parse_text b] at ha
    exact (Except.ok.inj ha).symm

example : text ⟨1000001⟩ = "1000.001 Kbps" := by decide

example : text (mbps 2000) = "2 Gbps" := by decide

end MbsClient.BitRate
