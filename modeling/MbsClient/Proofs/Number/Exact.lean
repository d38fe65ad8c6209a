import Mathlib.Algebra.Order.Field.Power
import Mathlib.Data.Int.Log
import Mathlib.Data.Rat.Cast.Order
import Mathlib.Tactic.FieldSimp
import Mathlib.Tactic.Linarith
import Mathlib.Tactic.NormNum
import Mathlib.Tactic.Ring
import MbsClient.Proofs.Json.Same

/-!
# Exact numbers — a value that a format holds is packed without rounding

A format holds `m · 2^q` in one way: with a full fraction, or with the least power of two. A
pattern that is not of that form is no finite number, and packing finds that form, so that a single
becomes a double and again the single it was.
-/

namespace MbsClient.Number

/-! ## 1. Quotients as rational numbers -/

/-- The value of a quotient. -/
def ratio (nd : Nat × Nat) : ℚ := nd.1 / nd.2

theorem scale2_den_pos (n : Nat) (e : Int) : 0 < (scale2 n e).2 := by
  unfold scale2
  split
  · exact Nat.one_pos
  · exact Nat.pow_pos (by decide)

theorem ratio_scale2 (n : Nat) (e : Int) : ratio (scale2 n e) = n * (2 : ℚ) ^ e := by
  unfold ratio scale2
  split
  case isTrue h =>
    obtain ⟨k, rfl⟩ := Int.eq_ofNat_of_zero_le h
    simp
  case isFalse h =>
    obtain ⟨k, hk⟩ := Int.eq_ofNat_of_zero_le (show 0 ≤ -e by omega)
    obtain rfl : e = -k := by omega
    simp [div_eq_mul_inv]

-- The logarithms of the two parts give the logarithm of a quotient up to one.
theorem ratio_bounds {n d : Nat} (hn : 0 < n) (hd : 0 < d) :
    (2 : ℚ) ^ ((Nat.log2 n : Int) - Nat.log2 d - 1) ≤ ratio (n, d) ∧
      ratio (n, d) < (2 : ℚ) ^ ((Nat.log2 n : Int) - Nat.log2 d + 1) := by
  have hd' : (0 : ℚ) < d := by exact_mod_cast hd
  have hn1 : (2 : ℚ) ^ Nat.log2 n ≤ n := by exact_mod_cast Nat.log2_self_le (by omega)
  have hn2 : (n : ℚ) < 2 ^ (Nat.log2 n + 1) := by exact_mod_cast Nat.lt_log2_self
  have hd1 : (2 : ℚ) ^ Nat.log2 d ≤ d := by exact_mod_cast Nat.log2_self_le (by omega)
  have hd2 : (d : ℚ) < 2 ^ (Nat.log2 d + 1) := by exact_mod_cast Nat.lt_log2_self
  have htwo : (2 : ℚ) ≠ 0 := by norm_num
  constructor
  · rw [ratio, le_div_iff₀ hd']
    calc (2 : ℚ) ^ ((Nat.log2 n : Int) - Nat.log2 d - 1) * d
        ≤ (2 : ℚ) ^ ((Nat.log2 n : Int) - Nat.log2 d - 1) * 2 ^ (Nat.log2 d + 1) := by gcongr
      _ = (2 : ℚ) ^ Nat.log2 n := by
          rw [← zpow_natCast, ← zpow_natCast, ← zpow_add₀ htwo]
          congr 1
          push_cast
          ring
      _ ≤ n := hn1
  · rw [ratio, div_lt_iff₀ hd']
    calc (n : ℚ) < 2 ^ (Nat.log2 n + 1) := hn2
      _ = (2 : ℚ) ^ ((Nat.log2 n : Int) - Nat.log2 d + 1) * 2 ^ Nat.log2 d := by
          rw [← zpow_natCast, ← zpow_natCast, ← zpow_add₀ htwo]
          congr 1
          push_cast
          ring
      _ ≤ (2 : ℚ) ^ ((Nat.log2 n : Int) - Nat.log2 d + 1) * d := by gcongr

theorem log2Quot_spec {n d : Nat} (hn : 0 < n) (hd : 0 < d) :
    (2 : ℚ) ^ log2Quot n d ≤ ratio (n, d) ∧ ratio (n, d) < (2 : ℚ) ^ (log2Quot n d + 1) := by
  obtain ⟨hlow, hhigh⟩ := ratio_bounds hn hd
  have hd' : (0 : ℚ) < d := by exact_mod_cast hd
  unfold log2Quot
  generalize (Nat.log2 n : Int) - Nat.log2 d = l at *
  have hpos : (0 : ℚ) < (scale2 d l).2 := by exact_mod_cast scale2_den_pos d l
  have hscale : ((scale2 d l).1 : ℚ) = d * 2 ^ l * (scale2 d l).2 := by
    rw [← ratio_scale2, ratio, div_mul_cancel₀ _ hpos.ne']
  have hless : n * (scale2 d l).2 < (scale2 d l).1 ↔ ratio (n, d) < 2 ^ l := by
    rw [ratio, div_lt_iff₀ hd', ← Nat.cast_lt (α := ℚ), Nat.cast_mul, hscale,
      mul_lt_mul_iff_left₀ hpos, mul_comm]
  simp only [hless]
  split
  case isTrue h => exact ⟨hlow, by simpa using h⟩
  case isFalse h => exact ⟨not_lt.1 h, hhigh⟩

theorem divNearest_exact {n d m : Nat} (hd : 0 < d) (h : n = m * d) : divNearest n d = m := by
  subst h
  unfold divNearest
  rw [Nat.mul_div_cancel _ hd, Nat.mul_mod_left]
  simp [hd]

/-! ## 2. Patterns of finite numbers -/

namespace Format

theorem hidden_eq (f : Format) : f.hidden = 2 ^ f.fraction := rfl

theorem hidden_pos (f : Format) : 0 < f.hidden := Nat.pow_pos (by decide)

theorem signBit_eq (f : Format) : f.signBit = (f.top + 1) * f.hidden := by
  have hpos : 0 < Nat.pow 2 f.exponent := Nat.pow_pos (by decide)
  rw [top, Nat.sub_add_cancel hpos, hidden, signBit, Nat.add_comm f.fraction]
  exact Nat.pow_add 2 _ _

/-- The pattern of a number without its sign. -/
def pattern (f : Format) (m : Nat) (q : Int) : Nat := (q - f.least).toNat * f.hidden + m

/-- The form in which a format holds a finite number: with a full fraction, or with the least power
of two. -/
structure Holds (f : Format) (m : Nat) (q : Int) : Prop where
  least_le : f.least ≤ q
  lt : m < 2 * f.hidden
  full : f.hidden ≤ m ∨ q = f.least
  finite : f.pattern m q < f.infinity

/-- The sign and the pattern that stand in bits together. -/
def signed (f : Format) (negative : Bool) (magnitude : Nat) : Nat :=
  (if negative then f.signBit else 0) + magnitude

end Format

variable {f : Format} {m : Nat} {q : Int}

-- The three fields of a pattern.
theorem unpack_fields {e fraction : Nat} (he : e ≤ f.top) (hfraction : fraction < f.hidden)
    (negative : Bool) :
    unpack f (f.signed negative (e * f.hidden + fraction)) =
      if e = f.top then (if fraction = 0 then .infinite negative else .nan)
      else if e = 0 then .finite negative fraction f.least
      else .finite negative (f.hidden + fraction) (f.least + (e - 1 : Nat)) := by
  have hpos := f.hidden_pos
  have hbits : f.signed negative (e * f.hidden + fraction) =
      f.hidden * ((f.top + 1) * negative.toNat + e) + fraction := by
    rw [Format.signed, Format.signBit_eq]
    cases negative <;> simp <;> ring
  have hlow : f.signed negative (e * f.hidden + fraction) % f.hidden = fraction := by
    rw [hbits, Nat.mul_add_mod, Nat.mod_eq_of_lt hfraction]
  have hhigh : f.signed negative (e * f.hidden + fraction) / f.hidden =
      (f.top + 1) * negative.toNat + e := by
    rw [hbits, Nat.mul_add_div hpos, Nat.div_eq_of_lt hfraction, Nat.add_zero]
  have hsign : f.signed negative (e * f.hidden + fraction) / f.signBit % 2 = negative.toNat := by
    rw [Format.signBit_eq, Nat.mul_comm (f.top + 1), ← Nat.div_div_eq_div_mul, hhigh,
      Nat.mul_add_div (Nat.succ_pos _), Nat.div_eq_of_lt (Nat.lt_succ_of_le he), Nat.add_zero]
    cases negative <;> rfl
  have hexponent : ((f.top + 1) * negative.toNat + e) % (f.top + 1) = e := by
    rw [Nat.mul_add_mod, Nat.mod_eq_of_lt (Nat.lt_succ_of_le he)]
  have hnegative : (negative.toNat == 1) = negative := by cases negative <;> rfl
  unfold unpack
  simp only [hlow, hhigh, hsign, hexponent, hnegative]

theorem exists_fields {bits : Nat} (hbits : bits < 2 * f.signBit) :
    ∃ negative e fraction, e ≤ f.top ∧ fraction < f.hidden ∧
      bits = f.signed negative (e * f.hidden + fraction) := by
  have hpos := f.hidden_pos
  have hsign : bits / f.hidden / (f.top + 1) < 2 := by
    rw [Nat.div_div_eq_div_mul, Nat.div_lt_iff_lt_mul (by positivity), Nat.mul_comm f.hidden,
      ← Format.signBit_eq]
    exact hbits
  refine ⟨bits / f.hidden / (f.top + 1) == 1, bits / f.hidden % (f.top + 1), bits % f.hidden,
    Nat.le_of_lt_succ (Nat.mod_lt _ (Nat.succ_pos _)), Nat.mod_lt _ hpos, ?_⟩
  have hparts := Nat.div_add_mod bits f.hidden
  have hfields := Nat.div_add_mod (bits / f.hidden) (f.top + 1)
  rw [Format.signed, Format.signBit_eq]
  conv_lhs => rw [← hparts, ← hfields]
  obtain hzero | hone := Nat.le_one_iff_eq_zero_or_eq_one.1 (Nat.le_of_lt_succ hsign)
  · simp only [hzero]
    simp
    ring
  · simp only [hone]
    simp
    ring

theorem unpack_signed (h : f.Holds m q) (negative : Bool) :
    unpack f (f.signed negative (f.pattern m q)) = .finite negative m q := by
  obtain ⟨hleast, hlt, hfull, hfinite⟩ := h
  have hpos := f.hidden_pos
  obtain ⟨e, he⟩ := Int.eq_ofNat_of_zero_le (show 0 ≤ q - f.least by omega)
  obtain rfl : q = f.least + e := by omega
  have hpattern : f.pattern m (f.least + e) = e * f.hidden + m := by
    rw [Format.pattern, show (f.least + (e : Int) - f.least).toNat = e by omega]
  rw [hpattern, Format.infinity] at hfinite
  rw [hpattern]
  by_cases hm : m < f.hidden
  · obtain rfl : e = 0 := by omega
    have htop : 0 < f.top := Nat.pos_of_mul_pos_right (Nat.zero_lt_of_lt hfinite)
    rw [unpack_fields htop.le hm, if_neg htop.ne, if_pos rfl]
    simp
  · obtain ⟨fraction, rfl⟩ := Nat.exists_eq_add_of_le (Nat.not_lt.1 hm)
    have htop : e + 1 < f.top := by
      refine Nat.lt_of_mul_lt_mul_right (a := f.hidden) (Nat.lt_of_le_of_lt ?_ hfinite)
      rw [Nat.add_mul]
      omega
    rw [show e * f.hidden + (f.hidden + fraction) = (e + 1) * f.hidden + fraction by ring,
      unpack_fields htop.le (by omega), if_neg htop.ne, if_neg (Nat.succ_ne_zero e)]
    rfl

-- Every finite number is held in that form.
theorem holds_of_unpack {bits : Nat} {negative : Bool} (hbits : bits < 2 * f.signBit)
    (h : unpack f bits = .finite negative m q) :
    f.Holds m q ∧ bits = f.signed negative (f.pattern m q) := by
  have hpos := f.hidden_pos
  obtain ⟨sign, e, fraction, he, hfraction, rfl⟩ := exists_fields hbits
  rw [unpack_fields he hfraction] at h
  split at h
  · split at h <;> cases h
  · rename_i htop
    have hfinite : e * f.hidden + fraction < f.infinity := by
      have hle : (e + 1) * f.hidden ≤ f.top * f.hidden := Nat.mul_le_mul_right _ (by omega)
      rw [Format.infinity]
      rw [Nat.add_mul] at hle
      omega
    split at h
    · rename_i hzero
      obtain ⟨rfl, rfl, rfl⟩ := Unpacked.finite.inj h
      have hpattern : f.pattern fraction f.least = e * f.hidden + fraction := by
        simp [Format.pattern, hzero]
      exact ⟨⟨le_refl _, by omega, .inr rfl, hpattern ▸ hfinite⟩, by rw [hpattern]⟩
    · rename_i hne
      obtain ⟨rfl, rfl, rfl⟩ := Unpacked.finite.inj h
      obtain ⟨k, rfl⟩ := Nat.exists_eq_succ_of_ne_zero hne
      have hpattern : f.pattern (f.hidden + fraction) (f.least + ((k.succ - 1 : Nat) : Int)) =
          k.succ * f.hidden + fraction := by
        rw [Format.pattern, Nat.succ_mul,
          show (f.least + ((k.succ - 1 : Nat) : Int) - f.least).toNat = k by omega]
        ring
      exact ⟨⟨by omega, by omega, .inl (Nat.le_add_right _ _), hpattern ▸ hfinite⟩,
        by rw [hpattern]⟩

/-! ## 3. Packing -/

theorem max_log2Quot {n d : Nat} (h : f.Holds m q) (hm : 0 < m) (hd : 0 < d)
    (hvalue : ratio (n, d) = m * (2 : ℚ) ^ q) :
    0 < n ∧ max f.least (log2Quot n d - f.fraction) = q := by
  have htwo : (2 : ℚ) ≠ 0 := by norm_num
  have hm' : (0 : ℚ) < m := by exact_mod_cast hm
  have hpower : (0 : ℚ) < 2 ^ q := by positivity
  have hn : 0 < n := by
    rcases Nat.eq_zero_or_pos n with rfl | hn
    · rw [ratio, Nat.cast_zero, zero_div] at hvalue
      exact absurd hvalue (mul_pos hm' hpower).ne
    · exact hn
  obtain ⟨hlow, hhigh⟩ := log2Quot_spec hn hd
  rw [hvalue] at hlow hhigh
  have hupper : log2Quot n d - f.fraction ≤ q := by
    have hlt : (m : ℚ) < 2 ^ (f.fraction + 1) := by
      have hlt := h.lt
      rw [Format.hidden_eq, ← pow_succ'] at hlt
      exact_mod_cast hlt
    have hless : (2 : ℚ) ^ log2Quot n d < 2 ^ ((f.fraction : Int) + 1 + q) := by
      calc (2 : ℚ) ^ log2Quot n d ≤ m * 2 ^ q := hlow
        _ < 2 ^ (f.fraction + 1) * 2 ^ q := by gcongr
        _ = 2 ^ ((f.fraction : Int) + 1 + q) := by
            rw [zpow_add₀ htwo, ← Nat.cast_succ, zpow_natCast]
    have := (zpow_lt_zpow_iff_right₀ (by norm_num)).1 hless
    omega
  refine ⟨hn, ?_⟩
  rcases h.full with hfull | rfl
  · have hless : (2 : ℚ) ^ ((f.fraction : Int) + q) < 2 ^ (log2Quot n d + 1) := by
      have hle : (2 : ℚ) ^ f.fraction ≤ m := by exact_mod_cast hfull
      calc (2 : ℚ) ^ ((f.fraction : Int) + q) = 2 ^ f.fraction * 2 ^ q := by
            rw [zpow_add₀ htwo, zpow_natCast]
        _ ≤ m * 2 ^ q := by gcongr
        _ < 2 ^ (log2Quot n d + 1) := hhigh
    have := (zpow_lt_zpow_iff_right₀ (by norm_num)).1 hless
    have := h.least_le
    omega
  · omega

theorem nearestMagnitude_exact {n d : Nat} (h : f.Holds m q) (hm : 0 < m) (hd : 0 < d)
    (hvalue : ratio (n, d) = m * (2 : ℚ) ^ q) : nearestMagnitude f n d = f.pattern m q := by
  obtain ⟨hn, hq⟩ := max_log2Quot h hm hd hvalue
  have ht := scale2_den_pos 1 q
  have hexact : n * (scale2 1 q).2 = m * (d * (scale2 1 q).1) := by
    have hd' : (d : ℚ) ≠ 0 := by exact_mod_cast hd.ne'
    have ht' : ((scale2 1 q).2 : ℚ) ≠ 0 := by exact_mod_cast ht.ne'
    have hscale := ratio_scale2 1 q
    rw [Nat.cast_one, one_mul, ratio, div_eq_iff ht'] at hscale
    rw [ratio, div_eq_iff hd'] at hvalue
    have hcast : (n : ℚ) * (scale2 1 q).2 = m * (d * (scale2 1 q).1) := by
      rw [hvalue, hscale]
      ring
    exact_mod_cast hcast
  have hs : 0 < d * (scale2 1 q).1 := by
    rcases Nat.eq_zero_or_pos (d * (scale2 1 q).1) with hzero | hpos
    · rw [hzero, Nat.mul_zero] at hexact
      exact absurd hexact (Nat.mul_pos hn ht).ne'
    · exact hpos
  unfold nearestMagnitude
  rw [if_neg hn.ne']
  simp only [hq, divNearest_exact hs hexact]
  exact min_eq_right h.finite.le

theorem pack_exact {negative : Bool} {m' : Nat} {q' : Int} (h : f.Holds m q) (hm : 0 < m)
    (hvalue : (m' : ℚ) * 2 ^ q' = m * 2 ^ q) :
    pack f (.finite negative m' q') = f.signed negative (f.pattern m q) := by
  have hmagnitude : nearestMagnitude f (scale2 m' q').1 (scale2 m' q').2 = f.pattern m q :=
    nearestMagnitude_exact h hm (scale2_den_pos m' q') ((ratio_scale2 m' q').trans hvalue)
  exact congrArg ((if negative then f.signBit else 0) + ·) hmagnitude

theorem pack_zero_signed (f : Format) (negative : Bool) (q : Int) :
    pack f (.finite negative 0 q) = f.signed negative 0 :=
  pack_zero f negative q

/-! ## 4. Singles as doubles -/

-- With the fraction filled up, a single is a double.
theorem exists_holds_double (h : Format.single.Holds m q) (hm : 0 < m) :
    ∃ m' q', Format.double.Holds m' q' ∧ 0 < m' ∧ (m' : ℚ) * 2 ^ q' = m * 2 ^ q := by
  obtain ⟨hleast, hlt, -, hfinite⟩ := h
  have hleast' : (-149 : Int) ≤ q := hleast
  have hlt' : m < 2 ^ 24 := hlt
  have hq : q < 106 := by
    have hpattern : (q - (-149)).toNat * 8388608 + m < 255 * 8388608 := hfinite
    omega
  have hlog : Nat.log2 m < 24 := (Nat.log2_lt hm.ne').2 hlt'
  obtain ⟨k, hk⟩ : ∃ k, Nat.log2 m + k = 52 := ⟨52 - Nat.log2 m, by omega⟩
  have hlow : 2 ^ 52 ≤ m * 2 ^ k := by
    rw [← hk, Nat.pow_add]
    exact Nat.mul_le_mul_right _ (Nat.log2_self_le hm.ne')
  have hhigh : m * 2 ^ k < 2 ^ 53 := by
    rw [show 53 = Nat.log2 m + 1 + k by omega, Nat.pow_add]
    exact Nat.mul_lt_mul_of_pos_right Nat.lt_log2_self (Nat.two_pow_pos k)
  refine ⟨m * 2 ^ k, q - k, ⟨?_, hhigh, .inl hlow, ?_⟩, by positivity, ?_⟩
  · show (-1074 : Int) ≤ q - k
    omega
  · show (q - k - (-1074)).toNat * 4503599627370496 + m * 2 ^ k < 2047 * 4503599627370496
    omega
  · rw [Nat.cast_mul, Nat.cast_pow, Nat.cast_ofNat, mul_assoc, ← zpow_natCast,
      ← zpow_add₀ (by norm_num : (2 : ℚ) ≠ 0), add_sub_cancel]

namespace Single

def isFinite (x : Single) : Bool :=
  match x.unpack with
  | .finite .. => true
  | _ => false

theorem unpack_of_isFinite {x : Single} (h : x.isFinite = true) :
    ∃ negative m q, x.unpack = .finite negative m q ∧ Format.single.Holds m q ∧
      x.bits.toNat = Format.single.signed negative (Format.single.pattern m q) := by
  unfold isFinite at h
  split at h
  · rename_i negative m q heq
    exact ⟨negative, m, q, heq, holds_of_unpack (x.bits.toNat_lt : x.bits.toNat < 2 ^ 32) heq⟩
  · cases h

end Single

theorem signed_lt (h : m < f.signBit) (negative : Bool) : f.signed negative m < 2 * f.signBit := by
  unfold Format.signed
  split <;> omega

theorem infinity_le_signBit (f : Format) : f.infinity ≤ f.signBit := by
  rw [Format.infinity, Format.signBit_eq]
  exact Nat.mul_le_mul_right _ (Nat.le_succ _)

theorem Double.unpack_ofPattern {bits : Nat} (h : bits < 2 * Format.double.signBit) :
    (Double.ofPattern bits).unpack = Number.unpack .double bits := by
  rw [Double.unpack, Double.ofPattern, UInt64.toNat_ofNat_of_lt' h]

-- A single and its double have one value.
theorem Single.unpack_toDouble {x : Single} {negative : Bool} (h : Format.single.Holds m q)
    (hx : x.unpack = .finite negative m q) :
    ∃ m' q', x.toDouble.unpack = .finite negative m' q' ∧ (m = 0 ↔ m' = 0) ∧
      (m' : ℚ) * 2 ^ q' = m * 2 ^ q := by
  unfold Single.toDouble
  rw [hx]
  rcases Nat.eq_zero_or_pos m with rfl | hm
  · have hzero : Format.double.Holds 0 Format.double.least :=
      ⟨le_refl _, by decide, .inr rfl, by decide⟩
    refine ⟨0, Format.double.least, ?_, Iff.rfl, by simp⟩
    rw [pack_zero_signed, Double.unpack_ofPattern (signed_lt (by decide) _)]
    exact unpack_signed hzero negative
  · obtain ⟨m', q', hholds, hm', hvalue⟩ := exists_holds_double h hm
    refine ⟨m', q', ?_, iff_of_false hm.ne' hm'.ne', hvalue⟩
    rw [pack_exact hholds hm' hvalue.symm, Double.unpack_ofPattern
      (signed_lt (Nat.lt_of_lt_of_le hholds.finite (infinity_le_signBit _)) _)]
    exact unpack_signed hholds negative

theorem Single.isFinite_toDouble {x : Single} (h : x.isFinite = true) :
    x.toDouble.isFinite = true := by
  obtain ⟨negative, m, q, hx, hholds, -⟩ := Single.unpack_of_isFinite h
  obtain ⟨m', q', hdouble, -⟩ := Single.unpack_toDouble hholds hx
  simp [Double.isFinite, hdouble]

/-- A single that has become a double becomes the same single again. -/
theorem Single.ofDouble_toDouble {x : Single} (h : x.isFinite = true) :
    Single.ofDouble x.toDouble = x := by
  obtain ⟨negative, m, q, hx, hholds, hbits⟩ := Single.unpack_of_isFinite h
  obtain ⟨m', q', hdouble, hzero, hvalue⟩ := Single.unpack_toDouble hholds hx
  have hpack : pack .single x.toDouble.unpack = x.bits.toNat := by
    rw [hdouble, hbits]
    rcases Nat.eq_zero_or_pos m with rfl | hm
    · obtain rfl := hzero.1 rfl
      obtain rfl : q = Format.single.least := hholds.full.resolve_left (by decide)
      exact pack_zero_signed _ _ _
    · exact pack_exact hholds hm hvalue
  rw [Single.ofDouble, Single.ofPattern, hpack, UInt32.ofNat_toNat]

end MbsClient.Number
