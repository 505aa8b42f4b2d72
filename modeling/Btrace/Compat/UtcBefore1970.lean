import Btrace.Compat.Utc

set_option autoImplicit false

/- `bt_timegm` before 1970. Its leap-day loop counts up from 1970 and does not
run for an earlier `tm_year`, and its month loop then reads the month lengths
of 1970. Every time it returns for a date from 1902 to 1969 is late by one day
for each February 29 from that date to 1970-01-01. -/
namespace Btrace.Compat

/-- The leap years among the `n` years from `y`. -/
def leapYearsFrom (y : Int) : Nat → Nat
  | 0 => 0
  | n + 1 => (if isLeapYear y then 1 else 0) + leapYearsFrom (y + 1) n

/-- The February 29ths from the date `tm` holds, that day included, to
1970-01-01: those of the years from `tm_year` to 1969, but for the one of
`tm_year` when the date is after it. -/
def leapDaysTo1970 (tm : Tm) : Int :=
  leapYearsFrom (1900 + tm.tmYear) (70 - tm.tmYear).toNat -
    if isLeapYear (1900 + tm.tmYear) ∧ 2 ≤ tm.tmMon then 1 else 0

theorem daysFromCivil_add_years : ∀ (y : Int) (n : Nat),
    daysFromCivil (y + n) 1 1 = daysFromCivil y 1 1 + 365 * n + leapYearsFrom y n
  | y, 0 => by simp [leapYearsFrom]
  | y, n + 1 => by
      have step := daysFromCivil_succ_year y
      have rest := daysFromCivil_add_years (y + 1) n
      rw [show y + 1 + (n : Int) = y + ((n + 1 : Nat) : Int) by push_cast; omega] at rest
      rw [rest, leapYearsFrom, step]
      split <;> push_cast <;> omega

/-- The days from January 1 to the first of month `m` (0 for January): the
days from March 1 in a year that starts in March, and the 365 or 366 days of
the year before the March 1 of the year from March on. -/
theorem daysFromCivil_sub_newYear (y m : Int) (low : 0 ≤ m) (high : m ≤ 11) :
    daysFromCivil y (m + 1) 1 - daysFromCivil y 1 1 =
      daysFromMarch (m + 1) - daysFromMarch 1 + if 2 ≤ m then 365 + (if isLeapYear y then 1 else 0) else 0 := by
  have step := daysToMarchFirst_succ (y - 1)
  rw [Int.sub_add_cancel] at step
  simp only [daysFromCivil]
  split_ifs at step ⊢ <;> omega

/-- The days to the first of month `m` of 1970, a year without February 29:
0 for January, 334 for December. -/
theorem daysFromCivil_1970_month (m : Int) (low : 0 ≤ m) (high : m ≤ 11) :
    0 ≤ daysFromCivil 1970 (m + 1) 1 ∧ daysFromCivil 1970 (m + 1) 1 ≤ 334 := by
  have offset := daysFromCivil_sub_newYear 1970 m low high
  rw [show daysFromCivil 1970 1 1 = 0 by decide, show isLeapYear 1970 = false by decide, if_neg Bool.false_ne_true,
    Int.add_zero] at offset
  unfold daysFromMarch at offset
  split_ifs at offset <;> omega

/-- The days to the first of month `m` in year `y` are those in 1970 and the
February 29 of `y` when `m` comes after it. -/
theorem daysFromCivil_month_sub_1970 (y m : Int) (low : 0 ≤ m) (high : m ≤ 11) :
    daysFromCivil y (m + 1) 1 - daysFromCivil y 1 1 =
      daysFromCivil 1970 (m + 1) 1 + if isLeapYear y ∧ 2 ≤ m then 1 else 0 := by
  have here := daysFromCivil_sub_newYear y m low high
  have there := daysFromCivil_sub_newYear 1970 m low high
  rw [show daysFromCivil 1970 1 1 = 0 by decide, show isLeapYear 1970 = false by decide] at there
  rw [here]
  by_cases late : 2 ≤ m <;> cases isLeapYear y <;> simp only [late, if_true, if_false, and_true, and_false,
    Bool.false_eq_true] at there ⊢ <;> omega

/-- The month loop from any day count in `int`: it adds the lengths of the
months before `month + n`, every partial sum lying between its start and its
end. -/
theorem monthLoop_ne_none_of_isCInt (year : Int) (calendarYear : IsCInt (1900 + year)) :
    ∀ (n month : Nat) (totalDays : Int), month + n ≤ 11 → intMin ≤ totalDays →
      totalDays + (daysFromCivil (1900 + year) ((month : Int) + n + 1) 1 - daysFromCivil (1900 + year) (month + 1) 1) ≤
        intMax →
      monthLoop year n month totalDays ≠ none
  | 0, _, _, _, _, _ => Option.some_ne_none _
  | n + 1, month, totalDays, within, counted, fits => by
      have step := daysFromCivil_succ_month (1900 + year) month (by omega) (by omega)
      have later := daysFromCivil_month_le (1900 + year) n (month + 1) (by omega)
      have positive := (daysInMonth_mem (1900 + year) month).1
      have shift : ((month + 1 : Nat) : Int) + 1 = month + 2 := by push_cast; omega
      have count : ((month + 1 : Nat) : Int) + n + 1 = (month : Int) + ((n + 1 : Nat) : Int) + 1 := by push_cast; omega
      rw [shift, count] at later
      simp only [monthLoop, bind, checkedInt_of_isCInt calendarYear, Option.some_bind, btLeapyear_eq_isLeapYear,
        monthlenAt_eq_daysInMonth _ month (by omega)]
      rw [checkedInt_of_isCInt ⟨by omega, by omega⟩, Option.some_bind]
      refine monthLoop_ne_none_of_isCInt year calendarYear n (month + 1) _ (by omega) (by omega) ?_
      rw [shift, count]
      omega

/-- Before 1970 the leap-day loop does not run, and the month loop adds the
days to month `tm_mon` of 1970. -/
theorem btTimegmSeconds_before_1970 {tm : Tm} (valid : ValidTm tm) (since1902 : 2 ≤ tm.tmYear)
    (before1970 : tm.tmYear < 70) :
    btTimegmSeconds tm = some
      ((((365 * (tm.tmYear - 70) + daysFromCivil 1970 (tm.tmMon + 1) 1 + (tm.tmMday - 1)) * 24 + tm.tmHour) * 60 +
        tm.tmMin) * 60 + tm.tmSec) := by
  obtain ⟨monLow, monHigh, mdayLow, mdayHigh, hourLow, hourHigh, minLow, minHigh, secLow, secHigh⟩ := valid
  have monthLength := (daysInMonth_mem (1900 + tm.tmYear) tm.tmMon).2
  have months1970 := daysFromCivil_1970_month tm.tmMon monLow monHigh
  have january : daysFromCivil 1970 1 1 = 0 := by decide
  have intMinValue : intMin = -2147483648 := rfl
  have intMaxValue : intMax = 2147483647 := rfl
  have months : monthLoop 70 tm.tmMon.toNat 0 (365 * (tm.tmYear - 70)) =
      some (365 * (tm.tmYear - 70) + daysFromCivil 1970 (tm.tmMon + 1) 1) := by
    obtain ⟨r, done⟩ := Option.ne_none_iff_exists'.1 <|
      monthLoop_ne_none_of_isCInt 70 (by decide) tm.tmMon.toNat 0 (365 * (tm.tmYear - 70)) (by omega) (by omega)
        (by rw [Int.toNat_of_nonneg monLow, Nat.cast_zero, Int.zero_add, Int.zero_add,
          show (1900 + 70 : Int) = 1970 from rfl, january]; omega)
    rw [monthLoop_from_january monLow monHigh done, show (1900 + 70 : Int) = 1970 from rfl, january, Int.sub_zero]
      at done
    exact done
  simp only [btTimegmSeconds, bind]
  iterate 2 rw [checkedInt_of_isCInt ⟨by omega, by omega⟩, Option.some_bind]
  rw [Int.toNat_eq_zero.2 (by omega), leapDayLoop, Option.some_bind]
  dsimp only
  rw [months, Option.some_bind]
  iterate 7 rw [checkedInt_of_isCInt ⟨by omega, by omega⟩, Option.some_bind]
  rw [checkedInt_of_isCInt ⟨by omega, by omega⟩]

/-- For every valid date from 1902 to 1969, `bt_timegm` returns a time, and
that time is late by exactly one day for each February 29 from the date, that
day included, to 1970-01-01: the leap-day loop only counts up from 1970, and
the month loop reads the month lengths of 1970, which has no February 29. The
result is exact only when no such day lies between. -/
theorem btTimegm_late_by_leap_days_before_1970 {tm : Tm} (valid : ValidTm tm) (since1902 : 2 ≤ tm.tmYear)
    (before1970 : tm.tmYear < 70) :
    btTimegm tm = .time (secondsFromEpoch tm + 86400 * leapDaysTo1970 tm) := by
  have inRange : ¬(tm.tmMon ≥ 12 ∨ tm.tmMday ≥ 32 ∨ tm.tmHour ≥ 24 ∨ tm.tmMin ≥ 60 ∨ tm.tmSec ≥ 61) := by
    have monthLength := (daysInMonth_mem (1900 + tm.tmYear) tm.tmMon).2
    obtain ⟨-, _, -, _, -, _, -, _, -, _⟩ := valid
    omega
  rw [btTimegm, if_neg inRange, btTimegmSeconds_before_1970 valid since1902 before1970]
  have years := daysFromCivil_add_years (1900 + tm.tmYear) (70 - tm.tmYear).toNat
  rw [Int.toNat_of_nonneg (by omega), show 1900 + tm.tmYear + (70 - tm.tmYear) = 1970 by omega,
    show daysFromCivil 1970 1 1 = 0 by decide] at years
  have months := daysFromCivil_month_sub_1970 (1900 + tm.tmYear) tm.tmMon valid.1 valid.2.1
  have day := daysFromCivil_day (1900 + tm.tmYear) (tm.tmMon + 1) tm.tmMday
  unfold secondsFromEpoch leapDaysTo1970
  dsimp only
  generalize (if isLeapYear (1900 + tm.tmYear) = true ∧ 2 ≤ tm.tmMon then (1 : Int) else 0) = afterLeapDay
    at months ⊢
  congr 1
  omega

/-- 1960-07-04T12:00:00: the February 29ths of 1964 and 1968 lie between it and
1970, and the one of 1960 before it. -/
def july1960 : Tm := ⟨0, 0, 12, 4, 6, 60, by decide⟩

theorem btTimegm_july1960 :
    ValidTm july1960 ∧ 2 ≤ july1960.tmYear ∧ july1960.tmYear < 70 ∧
      btTimegm july1960 = .time (secondsFromEpoch july1960 + 86400 * leapDaysTo1970 july1960) :=
  ⟨by decide, by decide, by decide, btTimegm_late_by_leap_days_before_1970 (by decide) (by decide) (by decide)⟩

example : leapDaysTo1970 july1960 = 2 := by decide

end Btrace.Compat
