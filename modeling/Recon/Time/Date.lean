import Recon.Text.Digits

/-!
# Calendar dates

Dates of the Gregorian calendar, extended to all years, with the day that follows, the day that
precedes and the weekday.  `dayNumber` counts days from a fixed one, so that weekdays are a
remainder of it; `dayNumber_next` says that the calendar step is a step of one day whatever month,
year or leap day it crosses.
-/

namespace Recon.Time

def isLeap (year : Int) : Bool := year % 4 == 0 && (year % 100 != 0 || year % 400 == 0)

def monthLength (year : Int) : Nat → Nat
  | 1 => 31
  | 2 => if isLeap year then 29 else 28
  | 3 => 31
  | 4 => 30
  | 5 => 31
  | 6 => 30
  | 7 => 31
  | 8 => 31
  | 9 => 30
  | 10 => 31
  | 11 => 30
  | 12 => 31
  | _ => 0

structure Date where
  year : Int
  month : Nat
  day : Nat
  one_le_day : 1 ≤ day
  day_le : day ≤ monthLength year month
deriving DecidableEq, Repr

def Date.ofParts? (year : Int) (month day : Nat) : Option Date :=
  if h : 1 ≤ day ∧ day ≤ monthLength year month then some ⟨year, month, day, h.1, h.2⟩ else none

/-- The first day of 1970, from which machines count their seconds. -/
def Date.epoch : Date := ⟨1970, 1, 1, by decide, by decide⟩

theorem monthLength_pos {year : Int} {month : Nat} (h₁ : 1 ≤ month) (h₂ : month ≤ 12) :
    1 ≤ monthLength year month := by
  have : month = 2 ∨ month = 1 ∨ month = 3 ∨ month = 4 ∨ month = 5 ∨ month = 6 ∨ month = 7 ∨
      month = 8 ∨ month = 9 ∨ month = 10 ∨ month = 11 ∨ month = 12 := by omega
  rcases this with rfl | this
  · simp only [monthLength]
    split <;> omega
  · rcases this with rfl | rfl | rfl | rfl | rfl | rfl | rfl | rfl | rfl | rfl | rfl <;>
      simp [monthLength]

theorem month_bounds_of_pos {year : Int} {month : Nat} (h : 1 ≤ monthLength year month) :
    1 ≤ month ∧ month ≤ 12 := by
  unfold monthLength at h
  split at h <;> omega

theorem Date.month_bounds (d : Date) : 1 ≤ d.month ∧ d.month ≤ 12 :=
  month_bounds_of_pos (Nat.le_trans d.one_le_day d.day_le)

def Date.next (d : Date) : Date :=
  if h : d.day < monthLength d.year d.month then
    ⟨d.year, d.month, d.day + 1, by omega, h⟩
  else if h : d.month < 12 then
    ⟨d.year, d.month + 1, 1, Nat.le_refl 1, monthLength_pos (by omega) (by omega)⟩
  else ⟨d.year + 1, 1, 1, Nat.le_refl 1, monthLength_pos (by omega) (by omega)⟩

def Date.prev (d : Date) : Date :=
  if h : 1 < d.day then
    ⟨d.year, d.month, d.day - 1, by omega, by have := d.day_le; omega⟩
  else if h : 1 < d.month then
    ⟨d.year, d.month - 1, monthLength d.year (d.month - 1),
      monthLength_pos (by omega) (by have := d.month_bounds; omega), Nat.le_refl _⟩
  else
    ⟨d.year - 1, 12, 31, by omega, by simp [monthLength]⟩

def daysBeforeMonth (year : Int) : Nat → Nat
  | 0 => 0
  | m + 1 => daysBeforeMonth year m + monthLength year m

def daysBeforeYear (year : Int) : Int :=
  365 * (year - 1) + (year - 1) / 4 - (year - 1) / 100 + (year - 1) / 400

def Date.dayNumber (d : Date) : Int :=
  daysBeforeYear d.year + daysBeforeMonth d.year d.month + (d.day - 1)

inductive Weekday where
  | monday
  | tuesday
  | wednesday
  | thursday
  | friday
  | saturday
  | sunday
deriving DecidableEq, Repr

def Weekday.ofIndex : Nat → Weekday
  | 0 => .monday
  | 1 => .tuesday
  | 2 => .wednesday
  | 3 => .thursday
  | 4 => .friday
  | 5 => .saturday
  | _ => .sunday

/-- The weekday of a date.  The first of January of year 1 is a Monday. -/
def Date.weekday (d : Date) : Weekday := Weekday.ofIndex (d.dayNumber % 7).toNat

/-- A year has as many days as lie between its first of January and the next. -/
theorem daysBeforeYear_succ (year : Int) :
    daysBeforeYear (year + 1) = daysBeforeYear year + 365 + (if isLeap year then 1 else 0) := by
  have hleap : isLeap year = true ↔ year % 4 = 0 ∧ (year % 100 ≠ 0 ∨ year % 400 = 0) := by
    simp [isLeap]
  have h4 : year / 4 = (year - 1) / 4 + if year % 4 = 0 then 1 else 0 := by split <;> omega
  have h100 : year / 100 = (year - 1) / 100 + if year % 100 = 0 then 1 else 0 := by
    split <;> omega
  have h400 : year / 400 = (year - 1) / 400 + if year % 400 = 0 then 1 else 0 := by
    split <;> omega
  have hprev : year + 1 - 1 = year := by omega
  unfold daysBeforeYear
  simp only [hprev, h4, h100, h400, hleap]
  split <;> split <;> split <;> split <;> omega

/-- The months of a year add up to its days. -/
theorem daysBeforeMonth_thirteen (year : Int) :
    daysBeforeMonth year 13 = 365 + (if isLeap year then 1 else 0) := by
  simp only [daysBeforeMonth, monthLength]
  split <;> rfl

/-- A step in the calendar is a step of one day. -/
theorem Date.dayNumber_next (d : Date) : d.next.dayNumber = d.dayNumber + 1 := by
  have hb := d.month_bounds
  have hd := d.one_le_day
  have hl := d.day_le
  unfold Date.next
  split
  · simp only [Date.dayNumber]
    omega
  · next hlast =>
    have hday : d.day = monthLength d.year d.month := by omega
    split
    · simp only [Date.dayNumber, daysBeforeMonth]
      omega
    · next hm =>
      have hmonth : d.month = 12 := by omega
      have hlen : d.day = 31 := by rw [hday, hmonth]; rfl
      have hyear := daysBeforeMonth_thirteen d.year
      have hmonths : daysBeforeMonth d.year 13 = daysBeforeMonth d.year 12 + 31 := rfl
      have hfirst : daysBeforeMonth (d.year + 1) 1 = 0 := rfl
      simp only [Date.dayNumber, daysBeforeYear_succ, hmonth, hlen, hfirst]
      split at hyear <;> simp_all <;> omega

end Recon.Time
