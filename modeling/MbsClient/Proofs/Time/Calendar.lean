import MbsClient.Time.Calendar

/-!
# Calendar round trip — the date of a day number is a date, and has that number

An era of 400 years is three centuries of 36524 days and one of 36525; a century is 24 or 25 times
four years of 1461 days, and four years are three of 365 days and one of 366. Every day of an era
is counted once this way.
-/

namespace MbsClient.Time.Date

/-! ## 1. The years of an era -/

/-- `n` is day `d` of year `t` of four years number `q` of century `c` of an era. -/
structure EraDay (n c q t d : Int) : Prop where
  century : 0 ≤ c ∧ c < 4
  four : 0 ≤ q ∧ q < 25
  year : 0 ≤ t ∧ t < 4
  day : 0 ≤ d ∧ d ≤ 365
  leap : d = 365 → t = 3 ∧ (q < 24 ∨ c = 3)
  sum : n = 36524 * c + 1461 * q + 365 * t + d

theorem exists_eraDay {n : Int} (h0 : 0 ≤ n) (h1 : n < 146097) :
    ∃ c q t d : Int, EraDay n c q t d := by
  obtain ⟨c, hc⟩ : ∃ c, c = min (n / 36524) 3 := ⟨_, rfl⟩
  obtain ⟨r, hr⟩ : ∃ r, r = n - 36524 * c := ⟨_, rfl⟩
  obtain ⟨t, ht⟩ : ∃ t, t = min (r % 1461 / 365) 3 := ⟨_, rfl⟩
  have hrange : 0 ≤ r ∧ (r < 36524 ∨ r = 36524 ∧ c = 3) := by omega
  refine ⟨c, r / 1461, t, r % 1461 - 365 * t, ⟨?_, ?_, ?_, ?_, ?_, ?_⟩⟩ <;> omega

namespace EraDay

variable {n c q t d : Int}

theorem yearOfEra (h : EraDay n c q t d) :
    (n - n / 1460 + n / 36524 - n / 146096) / 365 = 100 * c + 4 * q + t := by
  obtain ⟨hc, hq, ht, hd, hleap, hn⟩ := h
  have hcentury : n / 36524 - n / 146096 = c := by
    by_cases hlast : n = 146096
    · rw [hlast]; omega
    · have hwithin : 36524 * c ≤ n ∧ n < 36524 * (c + 1) := by omega
      have hzero : n / 146096 = 0 := by omega
      omega
  -- what the short division by four years is too large by is less than a day of the fourth year
  have hfour : n / 1460 = 25 * c + q ∨ n / 1460 = 25 * c + q + 1 ∧ 1 ≤ d ∧ t = 3 := by
    have hparts : n = 1460 * (25 * c + q) + (24 * c + q + 365 * t + d) := by omega
    by_cases hmore : 24 * c + q + 365 * t + d < 1460
    · omega
    · have hlast : t = 3 := by omega
      omega
  omega

theorem dayOfYear (h : EraDay n c q t d) :
    n - (365 * (100 * c + 4 * q + t) + (100 * c + 4 * q + t) / 4 - (100 * c + 4 * q + t) / 100) =
      d := by
  obtain ⟨hc, hq, ht, -, -, hn⟩ := h
  have hfour : (100 * c + 4 * q + t) / 4 = 25 * c + q := by omega
  have hcentury : (100 * c + 4 * q + t) / 100 = c := by omega
  omega

end EraDay

/-! ## 2. The months of a year -/

/-- The date of day `d` of year `y`, both counted from March, where `m` is its month. -/
def fromMarch (y d m : Int) : Date :=
  if m < 10 then ⟨y, (m + 3).toNat, (d - (153 * m + 2) / 5 + 1).toNat⟩
  else ⟨y + 1, (m - 9).toNat, (d - (153 * m + 2) / 5 + 1).toNat⟩

-- A month counted from March starts on day `(153 * m + 2) / 5`.
theorem exists_month {d : Int} (h0 : 0 ≤ d) (h1 : d ≤ 365) :
    ∃ m : Int, m = (5 * d + 2) / 153 ∧ (0 ≤ m ∧ m < 12) ∧
      (153 * m + 2) / 5 ≤ d ∧ d < (153 * (m + 1) + 2) / 5 :=
  ⟨(5 * d + 2) / 153, rfl, by omega, by omega, by omega⟩

theorem ofDays_eq {days c q t d m : Int} (h : EraDay ((days + 719468) % 146097) c q t d)
    (hm : m = (5 * d + 2) / 153) (hrange : 0 ≤ m ∧ m < 12) :
    ofDays days = fromMarch (100 * c + 4 * q + t + (days + 719468) / 146097 * 400) d m := by
  unfold ofDays fromMarch
  simp only [h.yearOfEra, h.dayOfYear, ← hm]
  split
  case isTrue hbefore =>
    rw [if_neg (by omega)]
  case isFalse hbehind =>
    rw [if_pos (by omega)]

theorem toDays_fromMarch {y d m : Int} (hrange : 0 ≤ m ∧ m < 12)
    (hstart : (153 * m + 2) / 5 ≤ d) :
    (fromMarch y d m).toDays =
      y / 400 * 146097 + (y % 400 * 365 + y % 400 / 4 - y % 400 / 100 + d) - 719468 := by
  have hday : ((d - (153 * m + 2) / 5 + 1).toNat : Int) = d - (153 * m + 2) / 5 + 1 := by omega
  unfold fromMarch toDays
  split
  case isTrue hbefore =>
    have hmonth : (((m + 3).toNat : Int) + 9) % 12 = m := by omega
    simp only [if_neg (show ¬ (m + 3).toNat ≤ 2 by omega), hmonth, hday]
    omega
  case isFalse hbehind =>
    have hmonth : (((m - 9).toNat : Int) + 9) % 12 = m := by omega
    simp only [if_pos (show (m - 9).toNat ≤ 2 by omega), hmonth, hday, Int.add_sub_cancel]
    omega

theorem toDays_ofDays (days : Int) : (ofDays days).toDays = days := by
  obtain ⟨c, q, t, d, h⟩ := exists_eraDay (n := (days + 719468) % 146097) (by omega) (by omega)
  obtain ⟨m, hm, hrange, hstart, -⟩ := exists_month h.day.1 h.day.2
  rw [ofDays_eq h hm hrange, toDays_fromMarch hrange hstart]
  have hyear := h.dayOfYear
  obtain ⟨hc, hq, ht, -, -, -⟩ := h
  have hy : 0 ≤ 100 * c + 4 * q + t ∧ 100 * c + 4 * q + t < 400 := by omega
  generalize 100 * c + 4 * q + t = y at *
  have hera : (y + (days + 719468) / 146097 * 400) / 400 = (days + 719468) / 146097 ∧
      (y + (days + 719468) / 146097 * 400) % 400 = y := by omega
  rw [hera.1, hera.2]
  omega

theorem isValid_ofDays (days : Int) : (ofDays days).isValid = true := by
  obtain ⟨c, q, t, d, h⟩ := exists_eraDay (n := (days + 719468) % 146097) (by omega) (by omega)
  obtain ⟨m, hm, hrange, hstart, hend⟩ := exists_month h.day.1 h.day.2
  rw [ofDays_eq h hm hrange]
  obtain ⟨hc, hq, ht, hd, hleap, -⟩ := h
  obtain ⟨y, hy⟩ : ∃ y, y = 100 * c + 4 * q + t + (days + 719468) / 146097 * 400 := ⟨_, rfl⟩
  have hleap : d = 365 → isLeap (y + 1) = true := by
    intro hlast
    have hyear := hleap hlast
    simp only [isLeap, Bool.and_eq_true, Bool.or_eq_true, decide_eq_true_eq, ne_eq]
    omega
  rw [← hy]
  unfold fromMarch isValid daysInMonth
  split
  case isTrue hbefore =>
    simp only [Bool.and_eq_true, decide_eq_true_eq]
    refine ⟨⟨⟨?_, ?_⟩, ?_⟩, ?_⟩
    · omega
    · omega
    · omega
    · rw [if_neg (by omega)]
      split <;> omega
  case isFalse hbehind =>
    simp only [Bool.and_eq_true, decide_eq_true_eq]
    refine ⟨⟨⟨?_, ?_⟩, ?_⟩, ?_⟩
    · omega
    · omega
    · omega
    · split
      · split <;> grind
      · split <;> omega

end MbsClient.Time.Date
