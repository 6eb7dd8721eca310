import Mathlib.Tactic.IntervalCases
import SchemaExtraction.Time.Calendar

/-!
# Counting days

The count of days runs through years that start in March. A day is a year of that kind and a day of
the year, the year being at most 366 days long, and both are found again from the count. With the
lengths of the months it follows that every count is that of a date that exists, and that a date
that exists is found again from its count.

Results:
* `Date.exists_march`: every count is a day of a year.
* `Date.march_unique`: the year and the day are those that the way back computes.
* `Date.exists_month`, `Date.exists_ofMonth`: the month of a day of a year, and that of a date.
* `Date.valid_ofDayNumber`, `Date.ofDayNumber_dayNumber`: dates and counts.
-/

namespace SchemaExtraction.Time

namespace Date

/-! ## Years that start in March -/

/-- The days before the first of March of a year. -/
def yearStart (y : Int) : Int := 365 * y + y / 4 - y / 100 + y / 400

/-- The length of the year that starts in March; the leap day of the next year ends it. -/
def yearLength (y : Int) : Int := if isLeap (y + 1) then 366 else 365

theorem le_yearLength (y : Int) : 365 ≤ yearLength y := by
  unfold yearLength
  split <;> omega

theorem yearLength_le (y : Int) : yearLength y ≤ 366 := by
  unfold yearLength
  split <;> omega

/-- The year of a day counted from March, as `ofDayNumber` computes it. -/
def marchYear (z : Int) : Int :=
  let doe := z % 146097
  (doe - doe / 1460 + doe / 36524 - doe / 146096) / 365 + z / 146097 * 400

/-- The day of that year. -/
def marchDay (z : Int) : Int :=
  let doe := z % 146097
  let yoe := (doe - doe / 1460 + doe / 36524 - doe / 146096) / 365
  doe - (365 * yoe + yoe / 4 - yoe / 100)

/-- The date of a day of a year that starts in March. -/
def ofMarch (y doy : Int) : Date :=
  let mp := (5 * doy + 2) / 153
  let month := if mp < 10 then mp + 3 else mp - 9
  ⟨if month ≤ 2 then y + 1 else y, month.toNat, (doy - (153 * mp + 2) / 5 + 1).toNat⟩

theorem ofDayNumber_eq (n : Int) :
    ofDayNumber n = ofMarch (marchYear (n + epoch)) (marchDay (n + epoch)) := rfl

theorem isLeap_iff (y : Int) : isLeap y = true ↔ y % 4 = 0 ∧ (y % 100 ≠ 0 ∨ y % 400 = 0) := by
  simp [isLeap]

/-- A year as its era of 400 years, the century in it, the four years in that, and the year in
    these; the last year of each is the one that may be longer. -/
theorem exists_parts (y : Int) : ∃ e c q r : Int, y = 400 * e + 100 * c + 4 * q + r ∧
    (0 ≤ c ∧ c ≤ 3) ∧ (0 ≤ q ∧ q ≤ 24) ∧ 0 ≤ r ∧ r ≤ 3 :=
  ⟨y / 400, y % 400 / 100, y % 100 / 4, y % 4, by omega, by omega, by omega, by omega⟩

section

variable {e c q r : Int} (hc : 0 ≤ c ∧ c ≤ 3) (hq : 0 ≤ q ∧ q ≤ 24) (hr : 0 ≤ r ∧ r ≤ 3)
include hc hq hr

theorem yearStart_parts : yearStart (400 * e + 100 * c + 4 * q + r) =
    146097 * e + 36524 * c + 1461 * q + 365 * r := by
  unfold yearStart
  omega

theorem yearLength_parts : yearLength (400 * e + 100 * c + 4 * q + r) =
    if r = 3 ∧ (q ≠ 24 ∨ c = 3) then 366 else 365 := by
  have h : isLeap (400 * e + 100 * c + 4 * q + r + 1) = true ↔ r = 3 ∧ (q ≠ 24 ∨ c = 3) := by
    rw [isLeap_iff]
    omega
  unfold yearLength
  simp only [h]

end

/-- The century of a day of the era: the last day of the era counts as one of its last century. -/
theorem century_eq {c w : Int} (hc : 0 ≤ c ∧ c ≤ 3) (hw0 : 0 ≤ w)
    (hw : w < 36524 ∨ c = 3 ∧ w = 36524) :
    (36524 * c + w) / 36524 - (36524 * c + w) / 146096 = c := by
  obtain hw | ⟨rfl, rfl⟩ := hw
  · have h : (36524 * c + w) / 36524 = c := by omega
    have h' : (36524 * c + w) / 146096 = 0 := by omega
    rw [h, h']
    omega
  · decide

/-- The year of the era: each leap day before the day is taken off, and a leap day at the end of
    four years does not count as the start of the next four. -/
theorem yearOfEra_eq {c q r doy w : Int} (hc : 0 ≤ c ∧ c ≤ 3) (hq : 0 ≤ q ∧ q ≤ 24)
    (hr : 0 ≤ r ∧ r ≤ 3) (h0 : 0 ≤ doy) (h1 : doy < 365 ∨ r = 3 ∧ doy = 365)
    (hw : w = 1461 * q + 365 * r + doy) :
    (36524 * c + w - (36524 * c + w) / 1460 + c) / 365 = 100 * c + 4 * q + r := by
  have hfour : (36524 * c + w) / 1460 = 25 * c + q + (24 * c + q + 365 * r + doy) / 1460 := by
    omega
  have hlast : (24 * c + q + 365 * r + doy) / 1460 = 0 ∧ doy < 365 ∨
      (24 * c + q + 365 * r + doy) / 1460 = 1 ∧ 0 < doy ∧ doy ≤ 365 := by
    omega
  rw [hfour]
  omega

/-- The year and the day of the year are found again from the count. -/
theorem march_unique {y doy : Int} (h0 : 0 ≤ doy) (h1 : doy < yearLength y) :
    marchYear (yearStart y + doy) = y ∧ marchDay (yearStart y + doy) = doy := by
  obtain ⟨e, c, q, r, rfl, hc, hq, hr⟩ := exists_parts y
  rw [yearLength_parts hc hq hr] at h1
  obtain ⟨w, hw⟩ : ∃ w, w = 1461 * q + 365 * r + doy := ⟨_, rfl⟩
  have hlast : doy < 365 ∨ r = 3 ∧ doy = 365 := by split at h1 <;> omega
  have hw0 : 0 ≤ w := by omega
  have hw1 : w < 36524 ∨ c = 3 ∧ w = 36524 := by split at h1 <;> omega
  have hz : yearStart (400 * e + 100 * c + 4 * q + r) + doy = 146097 * e + (36524 * c + w) := by
    rw [yearStart_parts hc hq hr]
    omega
  clear h1
  have hdiv : (146097 * e + (36524 * c + w)) / 146097 = e := by omega
  have hmod : (146097 * e + (36524 * c + w)) % 146097 = 36524 * c + w := by omega
  have hyoe := yearOfEra_eq hc hq hr h0 hlast hw
  have hfours : (100 * c + 4 * q + r) / 4 = 25 * c + q := by omega
  have hcenturies : (100 * c + 4 * q + r) / 100 = c := by omega
  rw [hz]
  unfold marchYear marchDay
  simp only [hdiv, hmod, Int.add_sub_assoc, century_eq hc hw0 hw1]
  rw [← Int.add_sub_assoc, hyoe, hfours, hcenturies]
  constructor
  · omega
  · omega

/-- Every count of days is a day of some year. -/
theorem exists_march (z : Int) :
    ∃ y doy, z = yearStart y + doy ∧ 0 ≤ doy ∧ doy < yearLength y := by
  obtain ⟨e, doe, hz, hdoe⟩ : ∃ e doe : Int, z = 146097 * e + doe ∧ 0 ≤ doe ∧ doe < 146097 :=
    ⟨z / 146097, z % 146097, by omega, by omega⟩
  obtain ⟨c, w, hw, hc, hw0⟩ : ∃ c w : Int, doe = 36524 * c + w ∧ (0 ≤ c ∧ c ≤ 3) ∧
      0 ≤ w ∧ (w < 36524 ∨ c = 3 ∧ w = 36524) :=
    ⟨min 3 (doe / 36524), doe - 36524 * min 3 (doe / 36524), by omega, by omega, by omega⟩
  obtain ⟨q, v, hv, hq, hv0⟩ : ∃ q v : Int, w = 1461 * q + v ∧ (0 ≤ q ∧ q ≤ 24) ∧
      0 ≤ v ∧ v < 1461 :=
    ⟨w / 1461, w % 1461, by omega, by omega, by omega⟩
  obtain ⟨r, doy, hdoy, hr, h0, h1⟩ : ∃ r doy : Int, v = 365 * r + doy ∧ (0 ≤ r ∧ r ≤ 3) ∧
      0 ≤ doy ∧ (doy < 365 ∨ r = 3 ∧ doy = 365) :=
    ⟨min 3 (v / 365), v - 365 * min 3 (v / 365), by omega, by omega, by omega⟩
  refine ⟨400 * e + 100 * c + 4 * q + r, doy, ?_, h0, ?_⟩
  · rw [yearStart_parts hc hq hr]
    omega
  · rw [yearLength_parts hc hq hr]
    split <;> omega

/-! ## Months that are counted from March -/

/-- The days of a year that starts in March before a month. -/
def monthStart (m : Int) : Int := (153 * m + 2) / 5

/-- The length of a month; the last one ends with its year. -/
def monthLength (y m : Int) : Int :=
  if m = 11 then yearLength y - monthStart 11 else monthStart (m + 1) - monthStart m

/-- The date of a day of a month, the day counted from zero. -/
def ofMonth (y m k : Int) : Date :=
  ⟨if m < 10 then y else y + 1, (if m < 10 then m + 3 else m - 9).toNat, (k + 1).toNat⟩

/-- A day of a year is a day of one of its twelve months. -/
theorem exists_month {y doy : Int} (h0 : 0 ≤ doy) (h1 : doy < yearLength y) :
    ∃ m k, doy = monthStart m + k ∧ (0 ≤ m ∧ m ≤ 11) ∧ 0 ≤ k ∧ k < monthLength y m := by
  have hl := yearLength_le y
  refine ⟨(5 * doy + 2) / 153, doy - monthStart ((5 * doy + 2) / 153), ?_, ?_, ?_, ?_⟩
  · omega
  · omega
  · unfold monthStart
    omega
  · unfold monthLength monthStart
    split <;> omega

section

variable {y m k : Int} (hm : 0 ≤ m ∧ m ≤ 11)
include hm

/-- The lengths of the months of the calendar are the distances of their starts. -/
theorem daysInMonth_ofMonth :
    (daysInMonth (ofMonth y m k).year (ofMonth y m k).month : Int) = monthLength y m := by
  obtain ⟨hm0, hm1⟩ := hm
  obtain rfl | hne := eq_or_ne m 11
  · cases hl : isLeap (y + 1) <;>
      simp [ofMonth, daysInMonth, monthLength, monthStart, yearLength, hl]
  · have hm2 : m ≤ 10 := by omega
    interval_cases m <;> simp [ofMonth, daysInMonth, monthLength, monthStart]

theorem daysFromMarch_ofMonth (hk : 0 ≤ k) :
    (ofMonth y m k).daysFromMarch = yearStart y + (monthStart m + k) := by
  have hday : ((k + 1).toNat : Int) = k + 1 := by omega
  unfold ofMonth daysFromMarch yearStart monthStart
  by_cases h : m < 10
  · have hmonth : ((m + 3).toNat : Int) = m + 3 := by omega
    have hlate : ¬ (m + 3).toNat ≤ 2 := by omega
    simp only [if_pos h, if_neg hlate, hmonth, hday]
    omega
  · have hmonth : ((m - 9).toNat : Int) = m - 9 := by omega
    have hearly : (m - 9).toNat ≤ 2 := by omega
    simp only [if_neg h, if_pos hearly, hmonth, hday]
    omega

variable (hk : 0 ≤ k ∧ k < monthLength y m)
include hk

theorem valid_ofMonth : (ofMonth y m k).valid = true := by
  have hl := daysInMonth_ofMonth (y := y) (k := k) hm
  have hday : (ofMonth y m k).day = (k + 1).toNat := rfl
  unfold valid
  simp only [Bool.and_eq_true, decide_eq_true_eq]
  omega

theorem monthStart_add_lt : 0 ≤ monthStart m + k ∧ monthStart m + k < yearLength y := by
  have hl := le_yearLength y
  unfold monthLength at hk
  unfold monthStart at *
  split at hk <;> omega

theorem ofMarch_eq : ofMarch y (monthStart m + k) = ofMonth y m k := by
  have hl := yearLength_le y
  have hmonth : (5 * (monthStart m + k) + 2) / 153 = m := by
    unfold monthLength at hk
    unfold monthStart at *
    split at hk <;> omega
  have hmk : monthStart m + k - (153 * m + 2) / 5 = k := by
    unfold monthStart
    omega
  unfold ofMarch ofMonth
  simp only [hmonth, hmk]
  by_cases h : m < 10
  · have hlate : ¬ m + 3 ≤ 2 := by omega
    simp only [if_pos h, if_neg hlate]
  · have hearly : m - 9 ≤ 2 := by omega
    simp only [if_neg h, if_pos hearly]

end

theorem month_le_of_daysInMonth_pos {year : Int} {month : Nat} (h : 0 < daysInMonth year month) :
    1 ≤ month ∧ month ≤ 12 := by
  unfold daysInMonth at h
  split at h <;> omega

theorem daysInMonth_le (year : Int) (month : Nat) : daysInMonth year month ≤ 31 := by
  unfold daysInMonth
  repeat' split
  all_goals omega

/-- The month and the day of a date that exists have two digits. -/
theorem lt_of_valid {d : Date} (h : d.valid = true) : d.month < 100 ∧ d.day < 100 := by
  simp only [valid, Bool.and_eq_true, decide_eq_true_eq] at h
  have hmonth := month_le_of_daysInMonth_pos (Nat.lt_of_lt_of_le h.1 h.2)
  have hday := daysInMonth_le d.year d.month
  omega

/-- A date that exists is a day of a month. -/
theorem exists_ofMonth {d : Date} (h : d.valid = true) :
    ∃ y m k, d = ofMonth y m k ∧ (0 ≤ m ∧ m ≤ 11) ∧ 0 ≤ k ∧ k < monthLength y m := by
  obtain ⟨year, month, day⟩ := d
  simp only [valid, Bool.and_eq_true, decide_eq_true_eq] at h
  have hmonth := month_le_of_daysInMonth_pos (Nat.lt_of_lt_of_le h.1 h.2)
  obtain ⟨y, m, hd, hm⟩ : ∃ y m, ⟨year, month, day⟩ = ofMonth y m (day - 1) ∧ 0 ≤ m ∧ m ≤ 11 := by
    by_cases hlate : 2 < month
    · have hm : (month : Int) - 3 < 10 := by omega
      refine ⟨year, month - 3, ?_, by omega, by omega⟩
      simp [ofMonth, hm]
    · have hm : ¬ (month : Int) + 9 < 10 := by omega
      refine ⟨year - 1, month + 9, ?_, by omega, by omega⟩
      simp [ofMonth, hm]
  have hl := daysInMonth_ofMonth (y := y) (k := day - 1) hm
  simp only [← hd] at hl
  exact ⟨y, m, day - 1, hd, hm, by omega, by omega⟩

/-! ## Dates and counts -/

/-- The date of a count exists. -/
theorem valid_ofDayNumber (n : Int) : (ofDayNumber n).valid = true := by
  obtain ⟨y, doy, hz, h0, h1⟩ := exists_march (n + epoch)
  obtain ⟨hy, hd⟩ := march_unique h0 h1
  obtain ⟨m, k, rfl, hm, hk⟩ := exists_month h0 h1
  rw [ofDayNumber_eq, hz, hy, hd, ofMarch_eq hm hk]
  exact valid_ofMonth hm hk

/-- A date that exists is found again from its count. -/
theorem ofDayNumber_dayNumber {d : Date} (h : d.valid = true) : ofDayNumber d.dayNumber = d := by
  obtain ⟨y, m, k, rfl, hm, hk⟩ := exists_ofMonth h
  obtain ⟨h0, h1⟩ := monthStart_add_lt hm hk
  obtain ⟨hy, hd⟩ := march_unique h0 h1
  have hz : (ofMonth y m k).dayNumber + epoch = yearStart y + (monthStart m + k) := by
    rw [← daysFromMarch_ofMonth hm hk.1, dayNumber]
    omega
  rw [ofDayNumber_eq, hz, hy, hd, ofMarch_eq hm hk]

end Date
end SchemaExtraction.Time
