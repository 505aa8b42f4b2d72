import Mathlib.Data.List.Basic
import Mathlib.Tactic.IntervalCases

set_option autoImplicit false

/- `bt_timegm`, the fallback `timegm()` of the utc compatibility header
(`native_bt_mip.i.h`): the `struct tm` fields it reads, its range check, its
two day-counting loops and its conversion to seconds, with every `int`
operation checked for signed overflow. Beside it, the proleptic Gregorian
count of days from 1970-01-01 (`daysFromCivil`) that it is meant to compute. -/
namespace Btrace.Compat

/-- `INT_MIN` of a 32-bit `int`. -/
def intMin : Int := -2147483648

/-- `INT_MAX` of a 32-bit `int`. -/
def intMax : Int := 2147483647

/-- A value a C `int` holds. -/
def IsCInt (v : Int) : Prop := intMin ≤ v ∧ v ≤ intMax

instance (v : Int) : Decidable (IsCInt v) := inferInstanceAs (Decidable (intMin ≤ v ∧ v ≤ intMax))

/-- The result of a signed `int` operation: `none` when it overflows, which is
undefined behaviour. -/
def checkedInt (v : Int) : Option Int := if IsCInt v then some v else none

/-- The fields of `struct tm` that `bt_timegm` reads, each an `int`. -/
structure Tm where
  tmSec : Int
  tmMin : Int
  tmHour : Int
  tmMday : Int
  tmMon : Int
  tmYear : Int
  isCInt : IsCInt tmSec ∧ IsCInt tmMin ∧ IsCInt tmHour ∧ IsCInt tmMday ∧ IsCInt tmMon ∧ IsCInt tmYear

/-- `bt_leapyear`, with C's truncating `%`. -/
def btLeapyear (year : Int) : Bool :=
  year.tmod 4 == 0 && (year.tmod 100 != 0 || year.tmod 400 == 0)

/-- The table `monthlen` of `bt_timegm`: the days per month of a regular year,
then of a leap year. -/
def monthlen : List (List Int) :=
  [[31, 28, 31, 30, 31, 30, 31, 31, 30, 31, 30, 31],
    [31, 29, 31, 30, 31, 30, 31, 31, 30, 31, 30, 31]]

/-- `monthlen[leap][month]`. -/
def monthlenAt (leap : Bool) (month : Nat) : Int := (monthlen.getD leap.toNat []).getD month 0

/-- The loop `for (year = 70; year < tm->tm_year; year++)` from `year`, with
`count` iterations left (`tm_year - year` when that is positive): one day more
for each leap year. It returns the final `year` and `total_days`. The counter
stays below `tm_year`, so its increment never overflows. -/
def leapDayLoop : Nat → Int → Int → Option (Int × Int)
  | 0, year, totalDays => some (year, totalDays)
  | count + 1, year, totalDays => do
      let calendarYear ← checkedInt (1900 + year)
      let totalDays ← if btLeapyear calendarYear then checkedInt (totalDays + 1) else pure totalDays
      leapDayLoop count (year + 1) totalDays

/-- The loop `for (month = 0; month < tm->tm_mon; month++)` from `month`, with
`count` iterations left: the lengths of the months before `tm_mon`, in the year
`year` at which the first loop stopped. -/
def monthLoop (year : Int) : Nat → Nat → Int → Option Int
  | 0, _, totalDays => some totalDays
  | count + 1, month, totalDays => do
      let calendarYear ← checkedInt (1900 + year)
      let totalDays ← checkedInt (totalDays + monthlenAt (btLeapyear calendarYear) month)
      monthLoop year count (month + 1) totalDays

/-- How `bt_timegm` ends: with a time, with `(time_t) -1` and `errno` set to
`EOVERFLOW` when a field is too large, or in a signed `int` overflow, which is
undefined behaviour. -/
inductive TimegmResult where
  | time (t : Int)
  | eoverflow
  | undefined
  deriving DecidableEq, Repr

/-- The day count and the conversion to seconds of `bt_timegm`, in `int`; the
result is then widened to `time_t`. -/
def btTimegmSeconds (tm : Tm) : Option Int := do
  let yearsSince ← checkedInt (tm.tmYear - 70)
  let totalDays ← checkedInt (365 * yearsSince)
  let (year, totalDays) ← leapDayLoop (tm.tmYear - 70).toNat 70 totalDays
  let totalDays ← monthLoop year tm.tmMon.toNat 0 totalDays
  let dayOffset ← checkedInt (tm.tmMday - 1)
  let totalDays ← checkedInt (totalDays + dayOffset)
  let hours ← checkedInt (totalDays * 24)
  let hours ← checkedInt (hours + tm.tmHour)
  let minutes ← checkedInt (hours * 60)
  let minutes ← checkedInt (minutes + tm.tmMin)
  let seconds ← checkedInt (minutes * 60)
  checkedInt (seconds + tm.tmSec)

/-- `bt_timegm`. -/
def btTimegm (tm : Tm) : TimegmResult :=
  if tm.tmMon ≥ 12 ∨ tm.tmMday ≥ 32 ∨ tm.tmHour ≥ 24 ∨ tm.tmMin ≥ 60 ∨ tm.tmSec ≥ 61 then .eoverflow
  else
    match btTimegmSeconds tm with
    | some t => .time t
    | none => .undefined

/-- Leap years of the proleptic Gregorian calendar. -/
def isLeapYear (y : Int) : Bool := y % 4 == 0 && (y % 100 != 0 || y % 400 == 0)

/-- The length of month `m` (0 for January) of year `y`. -/
def daysInMonth (y : Int) (m : Int) : Int :=
  if m = 1 then (if isLeapYear y then 29 else 28)
  else if m = 3 ∨ m = 5 ∨ m = 8 ∨ m = 10 then 30
  else 31

/-- The days from 1970-01-01 to March 1 of year `y`, counted in 400-year eras
of 146097 days from 0000-03-01. -/
def daysToMarchFirst (y : Int) : Int :=
  let era := y / 400
  let yoe := y - era * 400
  era * 146097 + yoe * 365 + yoe / 4 - yoe / 100 - 719468

/-- The days from March 1 to the first day of month `m` (1 to 12) of a year
that starts in March. -/
def daysFromMarch (m : Int) : Int := (153 * (if m > 2 then m - 3 else m + 9) + 2) / 5

/-- `days_from_civil`: the days from 1970-01-01 to the date `y-m-d` of the
proleptic Gregorian calendar, `m` from 1 to 12; January and February count in
the year that started the March before. -/
def daysFromCivil (y m d : Int) : Int :=
  daysToMarchFirst (if m ≤ 2 then y - 1 else y) + daysFromMarch m + d - 1

/-- The seconds from 1970-01-01T00:00:00 UTC to the date and time `tm` holds. -/
def secondsFromEpoch (tm : Tm) : Int :=
  daysFromCivil (1900 + tm.tmYear) (tm.tmMon + 1) tm.tmMday * 86400 + tm.tmHour * 3600 + tm.tmMin * 60 +
    tm.tmSec

/-- A `struct tm` holding a real date and time: every field in its range, the
day within its month, and a leap second allowed. -/
def ValidTm (tm : Tm) : Prop :=
  0 ≤ tm.tmMon ∧ tm.tmMon ≤ 11 ∧ 1 ≤ tm.tmMday ∧ tm.tmMday ≤ daysInMonth (1900 + tm.tmYear) tm.tmMon ∧
    0 ≤ tm.tmHour ∧ tm.tmHour ≤ 23 ∧ 0 ≤ tm.tmMin ∧ tm.tmMin ≤ 59 ∧ 0 ≤ tm.tmSec ∧ tm.tmSec ≤ 60

instance (tm : Tm) : Decidable (ValidTm tm) := by unfold ValidTm; infer_instance

/-- The largest 64-bit `time_t`. -/
def timeTMax : Int := 9223372036854775807

theorem daysToMarchFirst_succ (y : Int) :
    daysToMarchFirst (y + 1) = daysToMarchFirst y + 365 + if isLeapYear (y + 1) then 1 else 0 := by
  simp only [daysToMarchFirst, isLeapYear, Bool.and_eq_true, Bool.or_eq_true, beq_iff_eq, bne_iff_ne, ne_eq]
  split <;> omega

theorem daysFromCivil_succ_year (y : Int) :
    daysFromCivil (y + 1) 1 1 = daysFromCivil y 1 1 + 365 + if isLeapYear y then 1 else 0 := by
  have step := daysToMarchFirst_succ (y - 1)
  rw [Int.sub_add_cancel] at step
  simp only [daysFromCivil, if_pos (show (1 : Int) ≤ 2 by decide), Int.add_sub_cancel, step]
  omega

theorem daysFromCivil_succ_month (y m : Int) (low : 0 ≤ m) (high : m ≤ 10) :
    daysFromCivil y (m + 2) 1 = daysFromCivil y (m + 1) 1 + daysInMonth y m := by
  have step := daysToMarchFirst_succ (y - 1)
  rw [Int.sub_add_cancel] at step
  unfold daysFromCivil daysFromMarch daysInMonth
  interval_cases m <;> simp only [Int.reduceAdd, Int.reduceLE, Int.reduceSub, Int.reduceMul, Int.reduceDiv,
    Int.reduceLT, Int.reduceGT, Int.reduceEq, reduceIte, false_or, or_false, true_or, step] <;> (try split) <;> omega

theorem daysFromCivil_day (y m d : Int) : daysFromCivil y m d = daysFromCivil y m 1 + (d - 1) := by
  simp only [daysFromCivil]
  omega

theorem le_daysFromCivil_add_years (y : Int) :
    ∀ n : Nat, daysFromCivil y 1 1 + 365 * n ≤ daysFromCivil (y + n) 1 1
  | 0 => by simp
  | n + 1 => by
      have step := daysFromCivil_succ_year (y + n)
      have previous := le_daysFromCivil_add_years y n
      rw [Nat.cast_succ, ← Int.add_assoc, step]
      split <;> omega

theorem btLeapyear_eq_isLeapYear (year : Int) : btLeapyear year = isLeapYear year := by
  have same : ∀ n : Int, year.tmod n = 0 ↔ year % n = 0 := fun n => by
    rw [← Int.dvd_iff_tmod_eq_zero, Int.dvd_iff_emod_eq_zero]
  rw [Bool.eq_iff_iff]
  simp [btLeapyear, isLeapYear, same]

theorem monthlenAt_eq_daysInMonth (y : Int) (m : Nat) (valid : m ≤ 11) :
    monthlenAt (isLeapYear y) m = daysInMonth y m := by
  unfold daysInMonth
  cases isLeapYear y <;> interval_cases m <;> decide

@[simp] theorem checkedInt_eq_some {v w : Int} : checkedInt v = some w ↔ IsCInt v ∧ v = w := by
  unfold checkedInt
  split <;> simp_all

theorem checkedInt_of_isCInt {v : Int} (fits : IsCInt v) : checkedInt v = some v := if_pos fits

theorem daysInMonth_mem (y m : Int) : 0 < daysInMonth y m ∧ daysInMonth y m ≤ 31 := by
  unfold daysInMonth
  split_ifs <;> omega

/-- The leap-day loop adds the leap days of the years it visits. -/
theorem leapDayLoop_eq_some : ∀ (n : Nat) (year totalDays : Int) (r : Int × Int),
    leapDayLoop n year totalDays = some r →
      r = (year + n, totalDays + (daysFromCivil (1900 + (year + n)) 1 1 - daysFromCivil (1900 + year) 1 1 - 365 * n))
  | 0, year, totalDays, r, done => by
      simp only [leapDayLoop, Option.some.injEq] at done
      subst done
      simp
  | n + 1, year, totalDays, r, done => by
      simp only [leapDayLoop, bind, Option.bind_eq_some, checkedInt_eq_some] at done
      obtain ⟨_, ⟨_, rfl⟩, rest⟩ := done
      have step := daysFromCivil_succ_year (1900 + year)
      rw [show (1900 + year + 1 : Int) = 1900 + (year + 1) by omega] at step
      rw [show year + ((n + 1 : Nat) : Int) = year + 1 + n by push_cast; omega]
      rw [btLeapyear_eq_isLeapYear] at rest
      split at rest
      · obtain ⟨_, counted, rest⟩ := Option.bind_eq_some.1 rest
        obtain ⟨_, rfl⟩ := checkedInt_eq_some.1 counted
        rw [leapDayLoop_eq_some n (year + 1) _ r rest]
        rw [if_pos ‹_›] at step
        exact Prod.ext rfl (by push_cast; omega)
      · rw [Option.pure_def, Option.some_bind] at rest
        rw [leapDayLoop_eq_some n (year + 1) _ r rest]
        rw [if_neg ‹_›] at step
        exact Prod.ext rfl (by push_cast; omega)

theorem isCInt_of_nonneg {v : Int} (low : 0 ≤ v) (high : v ≤ intMax) : IsCInt v :=
  ⟨by unfold intMin; omega, high⟩

theorem leapDayLoop_ne_none : ∀ (n : Nat) (year totalDays : Int), 0 ≤ year → 0 ≤ totalDays →
    1900 + year + n ≤ intMax + 1 →
    totalDays + (daysFromCivil (1900 + (year + n)) 1 1 - daysFromCivil (1900 + year) 1 1 - 365 * n) ≤ intMax →
      leapDayLoop n year totalDays ≠ none
  | 0, _, _, _, _, _, _ => by simp [leapDayLoop]
  | n + 1, year, totalDays, since, counted, years, fits => by
      have step := daysFromCivil_succ_year (1900 + year)
      rw [show (1900 + year + 1 : Int) = 1900 + (year + 1) by omega] at step
      have later := le_daysFromCivil_add_years (1900 + (year + 1)) n
      rw [show (1900 + (year + 1) + n : Int) = 1900 + (year + 1 + n) by omega] at later
      rw [show year + ((n + 1 : Nat) : Int) = year + 1 + n by push_cast; omega] at fits
      push_cast at years fits
      simp only [leapDayLoop, bind, checkedInt_of_isCInt (isCInt_of_nonneg (by omega) (by omega) : IsCInt (1900 + year)),
        Option.some_bind, btLeapyear_eq_isLeapYear]
      split
      · rw [if_pos ‹_›] at step
        rw [checkedInt_of_isCInt (isCInt_of_nonneg (by omega) (by omega)), Option.some_bind]
        exact leapDayLoop_ne_none n (year + 1) (totalDays + 1) (by omega) (by omega) (by omega) (by omega)
      · rw [if_neg ‹_›] at step
        rw [Option.pure_def, Option.some_bind]
        exact leapDayLoop_ne_none n (year + 1) totalDays (by omega) (by omega) (by omega) (by omega)

theorem daysFromCivil_month_le (y : Int) : ∀ (n month : Nat), month + n ≤ 11 →
    daysFromCivil y (month + 1) 1 ≤ daysFromCivil y ((month : Int) + n + 1) 1
  | 0, month, _ => by simp
  | n + 1, month, within => by
      have step := daysFromCivil_succ_month y (month + n) (by omega) (by omega)
      have previous := daysFromCivil_month_le y n month (by omega)
      have positive := (daysInMonth_mem y (month + n)).1
      rw [show ((month : Int) + ((n + 1 : Nat) : Int) + 1) = month + n + 2 by push_cast; omega]
      omega

/-- The month loop adds the lengths of the months it visits. -/
theorem monthLoop_eq_some (year : Int) : ∀ (n month : Nat) (totalDays r : Int), month + n ≤ 11 →
    monthLoop year n month totalDays = some r →
      r = totalDays + (daysFromCivil (1900 + year) ((month : Int) + n + 1) 1 - daysFromCivil (1900 + year) (month + 1) 1)
  | 0, month, totalDays, r, _, done => by
      simp only [monthLoop, Option.some.injEq] at done
      subst done
      simp
  | n + 1, month, totalDays, r, within, done => by
      simp only [monthLoop, bind, Option.bind_eq_some, checkedInt_eq_some] at done
      obtain ⟨_, ⟨_, rfl⟩, _, ⟨_, rfl⟩, rest⟩ := done
      rw [monthLoop_eq_some year n (month + 1) _ r (by omega) rest, btLeapyear_eq_isLeapYear,
        monthlenAt_eq_daysInMonth _ month (by omega)]
      have step := daysFromCivil_succ_month (1900 + year) month (by omega) (by omega)
      rw [show ((month + 1 : Nat) : Int) + 1 = month + 2 by push_cast; omega,
        show ((month + 1 : Nat) : Int) + n + 1 = (month : Int) + ((n + 1 : Nat) : Int) + 1 by push_cast; omega]
      omega

theorem monthLoop_ne_none (year : Int) (calendarYear : IsCInt (1900 + year)) : ∀ (n month : Nat) (totalDays : Int),
    month + n ≤ 11 → 0 ≤ totalDays →
    totalDays + (daysFromCivil (1900 + year) ((month : Int) + n + 1) 1 - daysFromCivil (1900 + year) (month + 1) 1) ≤
      intMax →
      monthLoop year n month totalDays ≠ none
  | 0, _, _, _, _, _ => by simp [monthLoop]
  | n + 1, month, totalDays, within, counted, fits => by
      have step := daysFromCivil_succ_month (1900 + year) month (by omega) (by omega)
      have later := daysFromCivil_month_le (1900 + year) n (month + 1) (by omega)
      have positive := (daysInMonth_mem (1900 + year) month).1
      rw [show ((month + 1 : Nat) : Int) + 1 = month + 2 by push_cast; omega,
        show ((month + 1 : Nat) : Int) + n + 1 = (month : Int) + ((n + 1 : Nat) : Int) + 1 by push_cast; omega]
        at later
      simp only [monthLoop, bind, checkedInt_of_isCInt calendarYear, Option.some_bind, btLeapyear_eq_isLeapYear,
        monthlenAt_eq_daysInMonth _ month (by omega)]
      rw [checkedInt_of_isCInt (isCInt_of_nonneg (by omega) (by omega)), Option.some_bind]
      refine monthLoop_ne_none year calendarYear n (month + 1) _ (by omega) (by omega) ?_
      rw [show ((month + 1 : Nat) : Int) + 1 = month + 2 by push_cast; omega,
        show ((month + 1 : Nat) : Int) + n + 1 = (month : Int) + ((n + 1 : Nat) : Int) + 1 by push_cast; omega]
      omega

/-- From 1970, the leap-day loop stops at `tm_year` with the days to its January 1. -/
theorem leapDayLoop_from_1970 {year : Int} (since1970 : 70 ≤ year) {r : Int × Int}
    (done : leapDayLoop (year - 70).toNat 70 (365 * (year - 70)) = some r) :
    r = (year, daysFromCivil (1900 + year) 1 1) := by
  have counted := leapDayLoop_eq_some _ _ _ _ done
  rw [Int.toNat_of_nonneg (by omega), show (70 + (year - 70) : Int) = year by omega,
    show daysFromCivil (1900 + 70) 1 1 = 0 by decide] at counted
  exact counted.trans (Prod.ext rfl (by dsimp only; omega))

theorem leapDayLoop_from_1970_of_le {year : Int} (since1970 : 70 ≤ year) (calendar : 1900 + year ≤ intMax + 1)
    (days : daysFromCivil (1900 + year) 1 1 ≤ intMax) :
    leapDayLoop (year - 70).toNat 70 (365 * (year - 70)) = some (year, daysFromCivil (1900 + year) 1 1) := by
  have count : (((year - 70).toNat : Nat) : Int) = year - 70 := Int.toNat_of_nonneg (by omega)
  have epoch : daysFromCivil (1900 + 70) 1 1 = 0 := by decide
  obtain ⟨r, done⟩ := Option.ne_none_iff_exists'.1 <|
    leapDayLoop_ne_none (year - 70).toNat 70 (365 * (year - 70)) (by omega) (by omega)
    (by rw [count]; omega) (by rw [count, show (70 + (year - 70) : Int) = year by omega, epoch]; omega)
  rwa [leapDayLoop_from_1970 since1970 done] at done

/-- From January, the month loop adds the days to the first of month `mon`. -/
theorem monthLoop_from_january {year mon totalDays r : Int} (low : 0 ≤ mon) (high : mon ≤ 11)
    (done : monthLoop year mon.toNat 0 totalDays = some r) :
    r = totalDays + (daysFromCivil (1900 + year) (mon + 1) 1 - daysFromCivil (1900 + year) 1 1) := by
  have added := monthLoop_eq_some _ _ _ _ _ (by omega) done
  rwa [Int.toNat_of_nonneg low, Nat.cast_zero, Int.zero_add, Int.zero_add] at added

theorem monthLoop_from_january_of_le {year mon totalDays : Int} (calendarYear : IsCInt (1900 + year))
    (low : 0 ≤ mon) (high : mon ≤ 11) (counted : 0 ≤ totalDays)
    (fits : totalDays + (daysFromCivil (1900 + year) (mon + 1) 1 - daysFromCivil (1900 + year) 1 1) ≤ intMax) :
    monthLoop year mon.toNat 0 totalDays =
      some (totalDays + (daysFromCivil (1900 + year) (mon + 1) 1 - daysFromCivil (1900 + year) 1 1)) := by
  obtain ⟨r, done⟩ := Option.ne_none_iff_exists'.1 <| monthLoop_ne_none year calendarYear mon.toNat 0 totalDays (by omega) counted
    (by rwa [Int.toNat_of_nonneg low, Nat.cast_zero, Int.zero_add, Int.zero_add])
  rwa [monthLoop_from_january low high done] at done

/-- The facts of a valid date from 1970 on that bound every value `bt_timegm`
computes: the days to January 1, to the first of the month and to the day. -/
theorem dayCounts {tm : Tm} (valid : ValidTm tm) (since1970 : 70 ≤ tm.tmYear) :
    365 * (tm.tmYear - 70) ≤ daysFromCivil (1900 + tm.tmYear) 1 1 ∧
      daysFromCivil (1900 + tm.tmYear) 1 1 ≤ daysFromCivil (1900 + tm.tmYear) (tm.tmMon + 1) 1 ∧
      daysFromCivil (1900 + tm.tmYear) (tm.tmMon + 1) tm.tmMday =
        daysFromCivil (1900 + tm.tmYear) (tm.tmMon + 1) 1 + (tm.tmMday - 1) := by
  have months := daysFromCivil_month_le (1900 + tm.tmYear) tm.tmMon.toNat 0 (by have := valid.2.1; omega)
  have years := le_daysFromCivil_add_years 1970 (tm.tmYear - 70).toNat
  rw [Int.toNat_of_nonneg (by omega), show (1970 + (tm.tmYear - 70) : Int) = 1900 + tm.tmYear by omega,
    show daysFromCivil 1970 1 1 = 0 by decide] at years
  rw [Int.toNat_of_nonneg valid.1, Nat.cast_zero, Int.zero_add, Int.zero_add] at months
  exact ⟨by omega, months, daysFromCivil_day _ _ _⟩

theorem btTimegmSeconds_eq_some {tm : Tm} (valid : ValidTm tm) (since1970 : 70 ≤ tm.tmYear) {v : Int}
    (done : btTimegmSeconds tm = some v) : v = secondsFromEpoch tm ∧ IsCInt v := by
  simp only [btTimegmSeconds, bind, Option.bind_eq_some, checkedInt_eq_some] at done
  obtain ⟨_, ⟨_, rfl⟩, _, ⟨_, rfl⟩, ⟨year, days⟩, leap, _, month, _, ⟨_, rfl⟩, _, ⟨_, rfl⟩, _, ⟨_, rfl⟩,
    _, ⟨_, rfl⟩, _, ⟨_, rfl⟩, _, ⟨_, rfl⟩, _, ⟨_, rfl⟩, fits, rfl⟩ := done
  obtain ⟨rfl, rfl⟩ := Prod.mk.inj (leapDayLoop_from_1970 since1970 leap)
  have added := monthLoop_from_january valid.1 valid.2.1 month
  dsimp only at added
  have facts := dayCounts valid since1970
  refine ⟨?_, fits⟩
  unfold secondsFromEpoch
  omega

theorem btTimegmSeconds_ne_none {tm : Tm} (valid : ValidTm tm) (since1970 : 70 ≤ tm.tmYear)
    (fits : secondsFromEpoch tm ≤ intMax) : btTimegmSeconds tm ≠ none := by
  obtain ⟨years, months, day⟩ := dayCounts valid since1970
  obtain ⟨monLow, monHigh, mdayLow, -, hourLow, -, minLow, -, secLow, -⟩ := valid
  unfold secondsFromEpoch at fits
  have intMaxValue : intMax = 2147483647 := rfl
  simp only [btTimegmSeconds, bind]
  iterate 2 rw [checkedInt_of_isCInt (isCInt_of_nonneg (by omega) (by omega)), Option.some_bind]
  rw [leapDayLoop_from_1970_of_le since1970 (by omega) (by omega), Option.some_bind]
  dsimp only
  rw [monthLoop_from_january_of_le (isCInt_of_nonneg (by omega) (by omega)) monLow monHigh (by omega) (by omega),
    Option.some_bind]
  iterate 7 rw [checkedInt_of_isCInt (isCInt_of_nonneg (by omega) (by omega)), Option.some_bind]
  rw [checkedInt_of_isCInt (isCInt_of_nonneg (by omega) (by omega))]
  exact Option.some_ne_none _

theorem btTimegmSeconds_eq_checkedInt {tm : Tm} (valid : ValidTm tm) (since1970 : 70 ≤ tm.tmYear) :
    btTimegmSeconds tm = checkedInt (secondsFromEpoch tm) := by
  cases computed : btTimegmSeconds tm with
  | some v =>
      obtain ⟨rfl, fits⟩ := btTimegmSeconds_eq_some valid since1970 computed
      exact (checkedInt_of_isCInt fits).symm
  | none => exact (if_neg fun fits => btTimegmSeconds_ne_none valid since1970 fits.2 computed).symm

theorem secondsFromEpoch_nonneg {tm : Tm} (valid : ValidTm tm) (since1970 : 70 ≤ tm.tmYear) :
    0 ≤ secondsFromEpoch tm := by
  obtain ⟨years, months, day⟩ := dayCounts valid since1970
  obtain ⟨-, -, mdayLow, -, hourLow, -, minLow, -, secLow, -⟩ := valid
  unfold secondsFromEpoch
  omega

/-- From 1970 on, `bt_timegm` returns the exact time of a valid date while that
time fits in an `int`, and overflows `int` from the first time that does not
(2038-01-19T03:14:08). -/
theorem btTimegm_exact_since_1970 {tm : Tm} (valid : ValidTm tm) (since1970 : 70 ≤ tm.tmYear) :
    btTimegm tm = if secondsFromEpoch tm ≤ intMax then .time (secondsFromEpoch tm) else .undefined := by
  have inRange : ¬(tm.tmMon ≥ 12 ∨ tm.tmMday ≥ 32 ∨ tm.tmHour ≥ 24 ∨ tm.tmMin ≥ 60 ∨ tm.tmSec ≥ 61) := by
    have monthLength := (daysInMonth_mem (1900 + tm.tmYear) tm.tmMon).2
    obtain ⟨-, _, -, _, -, _, -, _, -, _⟩ := valid
    omega
  rw [btTimegm, if_neg inRange, btTimegmSeconds_eq_checkedInt valid since1970, checkedInt]
  by_cases fits : secondsFromEpoch tm ≤ intMax
  · rw [if_pos (isCInt_of_nonneg (secondsFromEpoch_nonneg valid since1970) fits), if_pos fits]
  · rw [if_neg fun inInt => fits inInt.2, if_neg fits]

/-- 2000-02-29T12:34:56. -/
def leapDay2000 : Tm := ⟨56, 34, 12, 29, 1, 100, by decide⟩

theorem btTimegm_leapDay2000 :
    ValidTm leapDay2000 ∧ 70 ≤ leapDay2000.tmYear ∧
      btTimegm leapDay2000 =
        if secondsFromEpoch leapDay2000 ≤ intMax then .time (secondsFromEpoch leapDay2000) else .undefined :=
  ⟨by decide, by decide, btTimegm_exact_since_1970 (by decide) (by decide)⟩

/-- 1968-01-01T00:00:00. -/
def newYear1968 : Tm := ⟨0, 0, 0, 1, 0, 68, by decide⟩

/-- 2038-02-01T00:00:00, two weeks after the largest time a 32-bit `int` holds. -/
def february2038 : Tm := ⟨0, 0, 0, 1, 1, 138, by decide⟩

/-- Two valid dates whose times fit in a 64-bit `time_t`: before 1970 the
leap-day loop, which only counts up from 1970, skips the leap day of 1968 and
the result is one day late; after January 2038 the seconds overflow `int`. -/
theorem btTimegm_misses_dates_outside_int_epoch :
    ValidTm newYear1968 ∧ btTimegm newYear1968 = .time (-63072000) ∧
      secondsFromEpoch newYear1968 = -63158400 ∧
      ValidTm february2038 ∧ btTimegm february2038 = .undefined ∧
      secondsFromEpoch february2038 = 2148595200 ∧ secondsFromEpoch february2038 ≤ timeTMax := by
  decide

end Btrace.Compat
