/-
# `GoodDealer.Lib.Calendar` — dates of the Gregorian calendar and day numbers

Days are counted from 1 January of year 0.  `dayNumber` counts a date given by any
three numbers, so a day past the end of its month is counted into the next one;
`ofDayNumber` reads a day number back as a date of the calendar.  The two agree on
the dates that exist, and on no others: `ofDayNumber_dayNumber`.
-/
import Mathlib.Data.Nat.Find
import Mathlib.Order.Monotone.Basic
import Mathlib.Tactic.SplitIfs

namespace GoodDealer

structure Date where
  year : Nat
  month : Nat
  day : Nat
deriving DecidableEq

namespace Date

def isLeap (year : Nat) : Bool := year % 4 == 0 && (year % 100 != 0 || year % 400 == 0)

def daysInYear (year : Nat) : Nat := if isLeap year then 366 else 365

/-- The length of a month; there is no month 0 and no month 13. -/
def daysInMonth (year month : Nat) : Nat :=
  match month with
  | 1 | 3 | 5 | 7 | 8 | 10 | 12 => 31
  | 4 | 6 | 9 | 11 => 30
  | 2 => if isLeap year then 29 else 28
  | _ => 0

/-- The days before 1 January of a year. -/
def daysBeforeYear (year : Nat) : Nat :=
  365 * year + (year + 3) / 4 - (year + 99) / 100 + (year + 399) / 400

/-- The days of the first months of a year. -/
def daysOfMonths (year : Nat) : Nat → Nat
  | 0 => 0
  | months + 1 => daysOfMonths year months + daysInMonth year (months + 1)

/-- The date is one of the calendar. -/
def Real (d : Date) : Prop :=
  1 ≤ d.month ∧ d.month ≤ 12 ∧ 1 ≤ d.day ∧ d.day ≤ daysInMonth d.year d.month

def dayNumber (d : Date) : Nat :=
  daysBeforeYear d.year + daysOfMonths d.year (d.month - 1) + (d.day - 1)

/-- The year a day belongs to. -/
def yearOf (n : Nat) : Nat := Nat.findGreatest (fun y => daysBeforeYear y ≤ n) (n / 365)

/-- The months of a year that end before a day of it. -/
def monthsBefore (year r : Nat) : Nat := Nat.findGreatest (fun k => daysOfMonths year k ≤ r) 11

def ofDayNumber (n : Nat) : Date :=
  let year := yearOf n
  let r := n - daysBeforeYear year
  let months := monthsBefore year r
  ⟨year, months + 1, r - daysOfMonths year months + 1⟩

/-! ## Counting -/

theorem daysBeforeYear_succ (y : Nat) :
    daysBeforeYear (y + 1) = daysBeforeYear y + daysInYear y := by
  -- each quotient grows by one after a multiple of its divisor
  have h4 : (y + 1 + 3) / 4 = (y + 3) / 4 + if y % 4 = 0 then 1 else 0 := by split <;> omega
  have h100 : (y + 1 + 99) / 100 = (y + 99) / 100 + if y % 100 = 0 then 1 else 0 := by
    split <;> omega
  have h400 : (y + 1 + 399) / 400 = (y + 399) / 400 + if y % 400 = 0 then 1 else 0 := by
    split <;> omega
  have hle : (y + 99) / 100 ≤ 365 * y + (y + 3) / 4 := by omega
  have h₁ : y % 100 = 0 → y % 4 = 0 := by omega
  have h₂ : y % 400 = 0 → y % 100 = 0 := by omega
  have hleap : daysInYear y = if y % 4 = 0 ∧ (y % 100 ≠ 0 ∨ y % 400 = 0) then 366 else 365 := by
    simp [daysInYear, isLeap]
  rw [hleap, daysBeforeYear, daysBeforeYear, h4, h100, h400]
  generalize (y + 3) / 4 = a at *
  generalize (y + 99) / 100 = b at *
  generalize (y + 399) / 400 = c at *
  generalize y % 4 = p at *
  generalize y % 100 = q at *
  generalize y % 400 = r at *
  split_ifs <;> omega

theorem daysBeforeYear_mono : Monotone daysBeforeYear :=
  monotone_nat_of_le_succ fun y => by
    rw [daysBeforeYear_succ]
    exact Nat.le_add_right _ _

theorem daysOfMonths_mono (y : Nat) : Monotone (daysOfMonths y) :=
  monotone_nat_of_le_succ fun _ => Nat.le_add_right _ _

theorem daysOfMonths_year (y : Nat) : daysOfMonths y 12 = daysInYear y := by
  simp only [daysOfMonths, daysInMonth, daysInYear]
  split <;> rfl

theorem le_daysBeforeYear (y : Nat) : 365 * y ≤ daysBeforeYear y := by
  unfold daysBeforeYear
  omega

/-- The last step of a rising function that starts at or below a number. -/
theorem findGreatest_step {f : Nat → Nat} (hf : Monotone f) {k bound n : Nat} (hk : k ≤ bound)
    (hle : f k ≤ n) (hlt : n < f (k + 1)) : Nat.findGreatest (fun k => f k ≤ n) bound = k := by
  refine Nat.findGreatest_eq_iff.mpr ⟨hk, fun _ => hle, fun j hj _ => ?_⟩
  have : f (k + 1) ≤ f j := hf hj
  omega

/-! ## Reading a day number back -/

theorem yearOf_spec (n : Nat) :
    daysBeforeYear (yearOf n) ≤ n ∧ n < daysBeforeYear (yearOf n + 1) := by
  have h0 : daysBeforeYear 0 ≤ n := Nat.zero_le n
  have hle : daysBeforeYear (yearOf n) ≤ n :=
    Nat.findGreatest_spec (P := fun y => daysBeforeYear y ≤ n) (Nat.zero_le _) h0
  refine ⟨hle, Nat.lt_of_not_le fun hnext => ?_⟩
  have hbound : yearOf n + 1 ≤ n / 365 := by
    have := le_daysBeforeYear (yearOf n + 1)
    omega
  exact Nat.findGreatest_is_greatest (P := fun y => daysBeforeYear y ≤ n) (Nat.lt_succ_self _)
    hbound hnext

theorem monthsBefore_spec {y r : Nat} (hr : r < daysInYear y) :
    monthsBefore y r ≤ 11 ∧ daysOfMonths y (monthsBefore y r) ≤ r ∧
      r < daysOfMonths y (monthsBefore y r + 1) := by
  have hle : daysOfMonths y (monthsBefore y r) ≤ r :=
    Nat.findGreatest_spec (P := fun k => daysOfMonths y k ≤ r) (Nat.zero_le _) (Nat.zero_le r)
  have hbound : monthsBefore y r ≤ 11 := Nat.findGreatest_le 11
  refine ⟨hbound, hle, Nat.lt_of_not_le fun hnext => ?_⟩
  rcases Nat.lt_or_eq_of_le hbound with h | h
  · exact Nat.findGreatest_is_greatest (P := fun k => daysOfMonths y k ≤ r) (Nat.lt_succ_self _)
      h hnext
  · rw [h, daysOfMonths_year] at hnext
    omega

theorem real_ofDayNumber (n : Nat) : (ofDayNumber n).Real := by
  obtain ⟨hle, hlt⟩ := yearOf_spec n
  rw [daysBeforeYear_succ] at hlt
  obtain ⟨hbound, hm, hm'⟩ :=
    @monthsBefore_spec (yearOf n) (n - daysBeforeYear (yearOf n)) (by omega)
  rw [daysOfMonths] at hm'
  simp only [Real, ofDayNumber]
  omega

theorem dayNumber_ofDayNumber (n : Nat) : (ofDayNumber n).dayNumber = n := by
  obtain ⟨hle, hlt⟩ := yearOf_spec n
  rw [daysBeforeYear_succ] at hlt
  obtain ⟨-, hm, -⟩ := @monthsBefore_spec (yearOf n) (n - daysBeforeYear (yearOf n)) (by omega)
  simp only [dayNumber, ofDayNumber, Nat.add_sub_cancel]
  omega

/-- A date is read back from its day number exactly when it exists. -/
theorem ofDayNumber_dayNumber {d : Date} : ofDayNumber d.dayNumber = d ↔ d.Real := by
  constructor
  · intro h
    rw [← h]
    exact real_ofDayNumber _
  · rintro ⟨hm, hm', hd, hd'⟩
    obtain ⟨y, m, day⟩ := d
    obtain ⟨k, rfl⟩ : ∃ k, m = k + 1 := ⟨m - 1, by simp only at hm; omega⟩
    simp only at *
    have hmonth : daysOfMonths y (k + 1) = daysOfMonths y k + daysInMonth y (k + 1) := rfl
    have hyear : daysOfMonths y (k + 1) ≤ daysInYear y := by
      rw [← daysOfMonths_year]
      exact daysOfMonths_mono y (by omega)
    have hy : yearOf (dayNumber ⟨y, k + 1, day⟩) = y := by
      apply findGreatest_step daysBeforeYear_mono
      · have := le_daysBeforeYear y
        simp only [dayNumber, Nat.add_sub_cancel]
        omega
      · simp only [dayNumber, Nat.add_sub_cancel]
        omega
      · rw [daysBeforeYear_succ]
        simp only [dayNumber, Nat.add_sub_cancel]
        omega
    have hr : dayNumber ⟨y, k + 1, day⟩ - daysBeforeYear y = daysOfMonths y k + (day - 1) := by
      simp only [dayNumber, Nat.add_sub_cancel]
      omega
    have hk : monthsBefore y (daysOfMonths y k + (day - 1)) = k :=
      findGreatest_step (daysOfMonths_mono y) (by omega) (by omega) (by omega)
    simp only [ofDayNumber, hy, hr, hk, Date.mk.injEq, true_and]
    omega

end Date

end GoodDealer
