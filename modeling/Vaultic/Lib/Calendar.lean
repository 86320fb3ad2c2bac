/-
  Lib/Calendar.lean  —  the months of the proleptic Gregorian calendar.

  Days are counted from 1970-01-01.  Inside this module they are counted from 0000-03-01
  instead, so that a leap day is the last day of its year and the lengths of the months
  of a year do not depend on the year.

  What is proved is that a month is an interval of days: the first day of a day's month
  is not after the day (`monthStart_le`), and a later day has no earlier first day
  (`monthStart_mono`).
-/
import Mathlib

set_option autoImplicit false

namespace Vaultic.Lib

/-! ## Years from March -/

/-- The days before the first of March of a year. -/
def daysBeforeYear (year : Int) : Int := 365 * year + year / 4 - year / 100 + year / 400

/-- The year that a day is in.  The mean length of a year gives it up to one year. -/
def yearOfDay (day : Int) : Int :=
  if daysBeforeYear (400 * day / 146097 + 1) ≤ day then 400 * day / 146097 + 1
  else if day < daysBeforeYear (400 * day / 146097) then 400 * day / 146097 - 1
  else 400 * day / 146097

theorem daysBeforeYear_succ (year : Int) :
    daysBeforeYear year + 365 ≤ daysBeforeYear (year + 1) ∧
      daysBeforeYear (year + 1) ≤ daysBeforeYear year + 366 := by
  unfold daysBeforeYear
  omega

theorem yearOfDay_spec (day : Int) :
    daysBeforeYear (yearOfDay day) ≤ day ∧ day < daysBeforeYear (yearOfDay day + 1) := by
  unfold yearOfDay
  generalize hestimate : 400 * day / 146097 = estimate
  have hlate : day < daysBeforeYear (estimate + 2) := by
    unfold daysBeforeYear
    omega
  have hearly : daysBeforeYear (estimate - 1) ≤ day := by
    unfold daysBeforeYear
    omega
  split_ifs with hnext hbefore
  · exact ⟨hnext, by rwa [add_assoc]⟩
  · exact ⟨hearly, by rwa [sub_add_cancel]⟩
  · exact ⟨not_lt.mp hbefore, not_le.mp hnext⟩

/-! ## Months -/

/-- The first day of a month; months are counted from March of the year zero. -/
def firstOfMonth (month : Int) : Int :=
  daysBeforeYear (month / 12) + (153 * (month % 12) + 2) / 5

def monthOfDay (day : Int) : Int :=
  12 * yearOfDay day + (5 * (day - daysBeforeYear (yearOfDay day)) + 2) / 153

/-- The first day of the month of a day, both counted from 1970-01-01. -/
def monthStart (day : Int) : Int := firstOfMonth (monthOfDay (day + 719468)) - 719468

theorem firstOfMonth_lt_succ (month : Int) : firstOfMonth month < firstOfMonth (month + 1) := by
  unfold firstOfMonth
  rcases eq_or_ne (month % 12) 11 with hlast | hother
  · have hyear : (month + 1) / 12 = month / 12 + 1 := by omega
    have hlength := (daysBeforeYear_succ (month / 12)).1
    rw [hyear, hlast, show (month + 1) % 12 = 0 by omega]
    omega
  · have hyear : (month + 1) / 12 = month / 12 := by omega
    rw [hyear, show (month + 1) % 12 = month % 12 + 1 by omega]
    omega

theorem firstOfMonth_strictMono : StrictMono firstOfMonth :=
  strictMono_int_of_lt_succ firstOfMonth_lt_succ

/-- A day lies in its month. -/
theorem monthOfDay_spec (day : Int) :
    firstOfMonth (monthOfDay day) ≤ day ∧ day < firstOfMonth (monthOfDay day + 1) := by
  obtain ⟨hfrom, hto⟩ := yearOfDay_spec day
  have hlength := (daysBeforeYear_succ (yearOfDay day)).2
  unfold monthOfDay firstOfMonth
  generalize yearOfDay day = year at hfrom hto hlength
  generalize hmonth : (5 * (day - daysBeforeYear year) + 2) / 153 = month
  have hbounds : 0 ≤ month ∧ month ≤ 11 := by omega
  rw [show (12 * year + month) / 12 = year by omega,
    show (12 * year + month) % 12 = month by omega]
  refine ⟨by omega, ?_⟩
  rcases eq_or_ne month 11 with rfl | hother
  · rw [show (12 * year + 11 + 1) / 12 = year + 1 by omega,
      show (12 * year + 11 + 1) % 12 = 0 by omega]
    omega
  · rw [show (12 * year + month + 1) / 12 = year by omega,
      show (12 * year + month + 1) % 12 = month + 1 by omega]
    omega

theorem monthOfDay_mono {day day' : Int} (h : day ≤ day') : monthOfDay day ≤ monthOfDay day' := by
  by_contra hlater
  have hstart : firstOfMonth (monthOfDay day' + 1) ≤ firstOfMonth (monthOfDay day) :=
    firstOfMonth_strictMono.monotone (by omega)
  have hfrom := (monthOfDay_spec day).1
  have hto := (monthOfDay_spec day').2
  omega

theorem monthStart_le (day : Int) : monthStart day ≤ day := by
  have h := (monthOfDay_spec (day + 719468)).1
  unfold monthStart
  omega

theorem monthStart_mono {day day' : Int} (h : day ≤ day') : monthStart day ≤ monthStart day' := by
  have hmonth := firstOfMonth_strictMono.monotone
    (monthOfDay_mono (show day + 719468 ≤ day' + 719468 by omega))
  unfold monthStart
  omega

-- The days of a leap February and the day after it.
example : [monthStart 0, monthStart 789, monthStart 790, monthStart (-1)] = [0, 761, 790, -31] := by
  decide

end Vaultic.Lib
