import Mathlib.Algebra.Order.Field.Rat
import MissionControl.Foundations.JsText
import MissionControl.Foundations.Numbers

/-!
The calendar of dates. A time is a number of milliseconds since the start of 1970, a day a number
of days since then; years and days may be negative.
-/

set_option autoImplicit false
set_option relaxedAutoImplicit false

namespace MissionControl.Foundations.Calendar

open JsText
open Numbers (Number)

/-! ### Years -/

def leap (year : Int) : Bool :=
  decide (year % 4 = 0) && (decide (year % 100 ≠ 0) || decide (year % 400 = 0))

def daysInYear (year : Int) : Int := if leap year then 366 else 365

/-- The first day of a year. -/
def dayFromYear (year : Int) : Int :=
  365 * (year - 1970) + (year - 1969) / 4 - (year - 1901) / 100 + (year - 1601) / 400

/-- The year of a day: 400 years have 146097 days, and the estimate that this gives is off by one
at most. -/
def yearFromDay (day : Int) : Int :=
  let estimate := 1970 + 400 * day / 146097
  if day < dayFromYear estimate then estimate - 1
  else if dayFromYear (estimate + 1) ≤ day then estimate + 1
  else estimate

theorem dayFromYear_succ (year : Int) :
    dayFromYear (year + 1) = dayFromYear year + daysInYear year := by
  have hleap : leap year = true ↔ year % 4 = 0 ∧ (year % 100 ≠ 0 ∨ year % 400 = 0) := by
    simp [leap]
  unfold dayFromYear daysInYear
  split
  · rename_i h
    obtain ⟨hfour, hcentury⟩ := hleap.mp h
    omega
  · rename_i h
    have hnot : ¬(year % 4 = 0 ∧ (year % 100 ≠ 0 ∨ year % 400 = 0)) := fun hcontra =>
      h (hleap.mpr hcontra)
    omega

/-- A year begins less than two days from where years of one length would have it begin. -/
theorem dayFromYear_bounds (year : Int) :
    146097 * (year - 1970) - 506 ≤ 400 * dayFromYear year ∧
      400 * dayFromYear year ≤ 146097 * (year - 1970) + 589 := by
  unfold dayFromYear
  omega

/-- A day is in its year. -/
theorem yearFromDay_spec (day : Int) :
    dayFromYear (yearFromDay day) ≤ day ∧ day < dayFromYear (yearFromDay day + 1) := by
  unfold yearFromDay
  simp only
  generalize hestimate : 1970 + 400 * day / 146097 = estimate
  have hlow : 146097 * (estimate - 1970) ≤ 400 * day := by omega
  have hhigh : 400 * day < 146097 * (estimate - 1970) + 146097 := by omega
  split
  · rename_i hbefore
    have hbounds := dayFromYear_bounds (estimate - 1)
    rw [Int.sub_add_cancel]
    omega
  · rename_i hfrom
    split
    · rename_i hafter
      have hbounds := dayFromYear_bounds (estimate + 1 + 1)
      omega
    · rename_i hbefore
      omega

/-! ### Months -/

def monthLengths (year : Int) : List Nat :=
  [31, if leap year then 29 else 28, 31, 30, 31, 30, 31, 31, 30, 31, 30, 31]

/-- The months before a day of the year, and its day of the month. -/
def monthAndDate : List Nat → Nat → Nat × Nat
  | [], n => (0, n + 1)
  | length :: lengths, n =>
    if n < length then (0, n + 1)
    else ((monthAndDate lengths (n - length)).1 + 1, (monthAndDate lengths (n - length)).2)

def dayWithinYear (day : Int) : Nat := (day - dayFromYear (yearFromDay day)).toNat

/-- `getMonth()`, from 0. -/
def month (day : Int) : Nat :=
  (monthAndDate (monthLengths (yearFromDay day)) (dayWithinYear day)).1

/-- `getDate()`, from 1. -/
def date (day : Int) : Nat :=
  (monthAndDate (monthLengths (yearFromDay day)) (dayWithinYear day)).2

/-- `getDay()`; the first day of 1970 was a Thursday. -/
def weekDay (day : Int) : Nat := ((day + 4) % 7).toNat

theorem monthAndDate_spec {lengths : List Nat} {n : Nat} (h : n < lengths.sum) :
    (monthAndDate lengths n).1 < lengths.length ∧ 1 ≤ (monthAndDate lengths n).2 ∧
      (monthAndDate lengths n).2 ≤ lengths.getD (monthAndDate lengths n).1 0 ∧
      (lengths.take (monthAndDate lengths n).1).sum + (monthAndDate lengths n).2 = n + 1 := by
  induction lengths generalizing n with
  | nil => simp at h
  | cons length lengths ih =>
    rw [List.sum_cons] at h
    rw [monthAndDate]
    split
    · rename_i hn
      simp
      omega
    · rename_i hn
      obtain ⟨hmonth, hfirst, hlast, hsum⟩ := ih (n := n - length) (by omega)
      refine ⟨by simpa using hmonth, hfirst, by simpa using hlast, ?_⟩
      simp only [List.take_succ_cons, List.sum_cons]
      omega

theorem sum_monthLengths (year : Int) : ((monthLengths year).sum : Int) = daysInYear year := by
  unfold monthLengths daysInYear
  cases leap year <;> rfl

theorem dayWithinYear_lt (day : Int) :
    dayWithinYear day < (monthLengths (yearFromDay day)).sum := by
  obtain ⟨hfrom, hbefore⟩ := yearFromDay_spec day
  rw [dayFromYear_succ] at hbefore
  have hsum := sum_monthLengths (yearFromDay day)
  unfold dayWithinYear
  omega

/-- A day is in one of the twelve months, and not after its end. -/
theorem month_lt (day : Int) : month day < 12 :=
  (monthAndDate_spec (dayWithinYear_lt day)).1

theorem one_le_date (day : Int) : 1 ≤ date day :=
  (monthAndDate_spec (dayWithinYear_lt day)).2.1

theorem date_le (day : Int) : date day ≤ (monthLengths (yearFromDay day)).getD (month day) 0 :=
  (monthAndDate_spec (dayWithinYear_lt day)).2.2.1

/-- The day of a month is counted from the day on which the month begins. -/
theorem date_eq (day : Int) :
    dayFromYear (yearFromDay day) + ((monthLengths (yearFromDay day)).take (month day)).sum
      + date day = day + 1 := by
  have hspec := (monthAndDate_spec (dayWithinYear_lt day)).2.2.2
  have hfrom := (yearFromDay_spec day).1
  unfold month date
  unfold dayWithinYear at *
  omega

theorem weekDay_lt (day : Int) : weekDay day < 7 := by
  unfold weekDay
  omega

/-! ### Times -/

/-- The farthest time from 1970 that a date can hold. -/
def maxTime : Int := 8640000000000000

/-- `Math.trunc`. -/
def trunc (x : ℚ) : Int := if 0 ≤ x then x.floor else x.ceil

/-- The time of `new Date(value)`; `none` is an invalid date. -/
def timeClip : Number → Option Int
  | .finite x => if -(maxTime : ℚ) ≤ x ∧ x ≤ maxTime then some (trunc x) else none
  | _ => none

def dayOfTime (time : Int) : Int := time / 86400000

/-! ### Texts -/

def yearText (year : Int) : String :=
  if 0 ≤ year ∧ year ≤ 9999 then padStart 4 (toString year.toNat)
  else (if year < 0 then "-" else "+") ++ padStart 6 (toString year.natAbs)

/-- What `toISOString()` writes before the letter `T`. -/
def isoDate (time : Int) : String :=
  let day := dayOfTime time
  yearText (yearFromDay day) ++ "-" ++ padStart 2 (toString (month day + 1)) ++ "-" ++
    padStart 2 (toString (date day))

theorem dash_mem_isoDate (time : Int) : '-' ∈ (isoDate time).toList := by
  simp [isoDate]

example : isoDate 951782399999 = "2000-02-28" ∧ isoDate 951782400000 = "2000-02-29" ∧
    isoDate (-1) = "1969-12-31" ∧ isoDate (-62198755200000) = "-000001-01-01" ∧
    isoDate 8640000000000000 = "+275760-09-13" := by decide +kernel

end MissionControl.Foundations.Calendar
