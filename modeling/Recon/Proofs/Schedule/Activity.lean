import Mathlib.Data.Int.Notation
import Mathlib.Data.Nat.Notation
import Recon.Schedule.Reading

/-!
# When a window is active

The times of a window cut an arc out of the day, which runs forward from its begin to its end and
past midnight if need be.  Which days count depends on the weekday alone, and weekdays go round with
every seven steps in the calendar.
-/

namespace Recon

open Recon.Time

/-! ### Weekdays -/

namespace Time

def Weekday.next : Weekday → Weekday
  | .monday => .tuesday
  | .tuesday => .wednesday
  | .wednesday => .thursday
  | .thursday => .friday
  | .friday => .saturday
  | .saturday => .sunday
  | .sunday => .monday

theorem Weekday.ofIndex_succ_mod : ∀ n < 7,
    Weekday.ofIndex ((n + 1) % 7) = (Weekday.ofIndex n).next := by
  decide

/-- A step in the calendar is a step in the week. -/
theorem Date.weekday_next (d : Date) : d.next.weekday = d.weekday.next := by
  have hindex : ((d.dayNumber + 1) % 7).toNat = ((d.dayNumber % 7).toNat + 1) % 7 := by omega
  rw [Date.weekday, Date.dayNumber_next, hindex]
  exact Weekday.ofIndex_succ_mod _ (by omega)

example : Date.epoch.weekday = .thursday := by decide

def Date.IsWorkday (d : Date) : Prop :=
  d.weekday ∈ [.monday, .tuesday, .wednesday, .thursday, .friday]

/-- The date so many steps on in the calendar. -/
def Date.daysLater (d : Date) (n : ℕ) : Date := Nat.repeat Date.next n d

theorem Date.weekday_daysLater_seven (d : Date) : (d.daysLater 7).weekday = d.weekday := by
  have hround (w : Weekday) : w.next.next.next.next.next.next.next = w := by cases w <;> rfl
  simp only [Date.daysLater, Nat.repeat, Date.weekday_next, hround]

end Time

def Reading.daysLater (r : Reading) (n : ℕ) : Reading :=
  { r with moment := { r.moment with date := r.moment.date.daysLater n } }

@[simp] theorem Reading.second_daysLater (r : Reading) (n : ℕ) :
    (r.daysLater n).moment.second = r.moment.second := rfl

@[simp] theorem Reading.date_daysLater (r : Reading) (n : ℕ) :
    (r.daysLater n).moment.date = r.moment.date.daysLater n := rfl

/-! ### The arc of a window -/

namespace Window

theorem secondOfDay_lt (t : TimeOfDay) : t.secondOfDay < 86400 := by
  have hh := t.hour.isLt
  have hm := t.minute.isLt
  unfold TimeOfDay.secondOfDay TimeOfDay.minuteOfDay
  omega

theorem secondOfDay_injective {t u : TimeOfDay} (h : t.secondOfDay = u.secondOfDay) : t = u := by
  obtain ⟨⟨a, ha⟩, ⟨b, hb⟩⟩ := t
  obtain ⟨⟨c, hc⟩, ⟨d, hd⟩⟩ := u
  simp only [TimeOfDay.secondOfDay, TimeOfDay.minuteOfDay] at h
  obtain rfl : a = c := by omega
  obtain rfl : b = d := by omega
  rfl

theorem isEarlier_whole (second nanos bound : ℕ) :
    isEarlier (second, nanos) (bound, 0) = decide (second < bound) := by
  simp [isEarlier]

/-- The times of a window are whole minutes, so nanoseconds do not matter. -/
theorem coversTime_eq (w : Window) (second nanos : ℕ) :
    w.coversTime (second, nanos) = w.covers second := by
  simp only [coversTime, covers, isEarlier_whole, ← decide_not, Nat.not_lt, decide_eq_true_eq]
  by_cases h : w.start.secondOfDay ≤ w.stop.secondOfDay
  · rw [if_neg (Nat.not_lt.mpr h), if_pos h]
  · rw [if_pos (Nat.lt_of_not_le h), if_neg h]

theorem isActiveAt_eq (w : Window) (now : Reading) : w.isActiveAt now = w.isActive now.moment := by
  have hhour : decide (now.moment.second.val / 3600 < 5) =
      decide (now.moment.second.val < 5 * 3600) := by
    rw [decide_eq_decide]
    omega
  unfold isActiveAt isActive
  cases w.recurrence with
  | daily => exact coversTime_eq w _ _
  | workdays =>
    cases now.moment.date.weekday <;> first | rfl | exact coversTime_eq w _ _
  | businessHours =>
    cases now.moment.date.weekday <;> first | rfl | exact hhour

/-- A second of the day lies in the window if it is reached from the begin before the end is. -/
theorem covers_iff (w : Window) {second : ℕ} (h : second < 86400) :
    w.covers second = true ↔
      ((second : ℤ) - w.start.secondOfDay) % 86400 <
        ((w.stop.secondOfDay : ℤ) - w.start.secondOfDay) % 86400 := by
  have hstart := secondOfDay_lt w.start
  have hstop := secondOfDay_lt w.stop
  unfold covers
  split
  · simp only [Bool.and_eq_true, decide_eq_true_eq]
    omega
  · simp only [Bool.or_eq_true, decide_eq_true_eq]
    omega

theorem covers_eq_false (w : Window) (h : w.start = w.stop) (second : ℕ) :
    w.covers second = false := by
  unfold covers
  rw [h, if_pos (Nat.le_refl _), Bool.and_eq_false_iff, decide_eq_false_iff_not,
    decide_eq_false_iff_not]
  omega

/-- With its times exchanged a window covers what it did not cover. -/
theorem covers_exchanged {w w' : Window} (hne : w.start ≠ w.stop) (hstart : w'.start = w.stop)
    (hstop : w'.stop = w.start) (second : ℕ) : w'.covers second = !w.covers second := by
  have hsecond : w.start.secondOfDay ≠ w.stop.secondOfDay := mt secondOfDay_injective hne
  rw [Bool.eq_not, ne_eq, Bool.eq_iff_iff]
  unfold covers
  rw [hstart, hstop]
  split <;> split <;>
    simp only [Bool.and_eq_true, Bool.or_eq_true, decide_eq_true_eq] <;> omega

theorem isActive_daily (start stop : TimeOfDay) (now : Moment) :
    (Window.mk .daily start stop).isActive now =
      (Window.mk .daily start stop).covers now.second.val := rfl

theorem isActive_workdays_iff (start stop : TimeOfDay) (now : Moment) :
    (Window.mk .workdays start stop).isActive now = true ↔
      (Window.mk .daily start stop).isActive now = true ∧ now.date.IsWorkday := by
  simp only [isActive, Date.IsWorkday]
  cases now.date.weekday <;> simp [covers]

theorem isActive_businessHours_iff (start stop : TimeOfDay) (now : Moment) :
    (Window.mk .businessHours start stop).isActive now = true ↔
      now.date.IsWorkday ∨ now.date.weekday = .saturday ∧ now.second.val < 5 * 3600 := by
  simp only [isActive, Date.IsWorkday]
  cases now.date.weekday <;> simp

/-- Only the weekday of a date matters. -/
theorem isActive_congr (w : Window) {now later : Moment} (hsecond : later.second = now.second)
    (hweekday : later.date.weekday = now.date.weekday) : w.isActive later = w.isActive now := by
  simp only [isActive, hsecond, hweekday]

structure ActiveByDay (start stop : TimeOfDay) (now : Reading) : Prop where
  /-- A daily window is active when the second of the day is reached from the begin, going forward
  and past midnight, before the end is. -/
  arc : (Window.mk .daily start stop).isActiveAt now = true ↔
    ((now.moment.second.val : ℤ) - 60 * start.minuteOfDay) % 86400 <
      (60 * stop.minuteOfDay - 60 * start.minuteOfDay : ℤ) % 86400
  empty : start = stop → (Window.mk .daily start stop).isActiveAt now = false
  /-- It is active just when the window with its times exchanged is not. -/
  exchanged : start ≠ stop → ((Window.mk .daily stop start).isActiveAt now = true ↔
    ¬ (Window.mk .daily start stop).isActiveAt now = true)
  workdays : (Window.mk .workdays start stop).isActiveAt now = true ↔
    (Window.mk .daily start stop).isActiveAt now = true ∧ now.moment.date.IsWorkday
  /-- Business hours are all workdays and Saturday before five, whatever the times. -/
  businessHours : (Window.mk .businessHours start stop).isActiveAt now = true ↔
    now.moment.date.IsWorkday ∨
      now.moment.date.weekday = .saturday ∧ now.moment.second.val < 5 * 3600
  weekly : ∀ recurrence, (Window.mk recurrence start stop).isActiveAt (now.daysLater 7) =
    (Window.mk recurrence start stop).isActiveAt now
  /-- Each step in the calendar is a step in the week. -/
  stepwise : ∀ n, (now.daysLater (n + 1)).moment.date.weekday =
    (now.daysLater n).moment.date.weekday.next

/-- A window is active by the arc of the day between its times and by the weekday, down to the
nanosecond. -/
theorem active_by_arc_and_weekday (start stop : TimeOfDay) (now : Reading) :
    ActiveByDay start stop now where
  arc := by
    have hsecond (t : TimeOfDay) : (t.secondOfDay : ℤ) = 60 * t.minuteOfDay := by
      rw [TimeOfDay.secondOfDay]
      omega
    have hcovers := covers_iff ⟨.daily, start, stop⟩ now.moment.second.isLt
    rwa [isActiveAt_eq, isActive_daily, ← hsecond, ← hsecond]
  empty h := by rw [isActiveAt_eq, isActive_daily, covers_eq_false _ h]
  exchanged h := by
    rw [isActiveAt_eq, isActiveAt_eq, isActive_daily, isActive_daily,
      covers_exchanged (w := ⟨.daily, start, stop⟩) h rfl rfl, Bool.not_eq_true']
    exact (Bool.not_eq_true _).symm.to_iff
  workdays := by
    simp only [isActiveAt_eq]
    exact isActive_workdays_iff start stop _
  businessHours := by
    rw [isActiveAt_eq]
    exact isActive_businessHours_iff start stop _
  weekly recurrence := by
    rw [isActiveAt_eq, isActiveAt_eq]
    apply isActive_congr
    · rw [Reading.second_daysLater]
    · rw [Reading.date_daysLater, Date.weekday_daysLater_seven]
  stepwise n := Date.weekday_next (now.moment.date.daysLater n)

namespace Sample

def evening : TimeOfDay := ⟨⟨22, by decide⟩, ⟨0, by decide⟩⟩

def morning : TimeOfDay := ⟨⟨6, by decide⟩, ⟨0, by decide⟩⟩

def eve : Reading := ⟨⟨⟨2024, 2, 28, by decide, by decide⟩, ⟨84600, by decide⟩⟩, 999999999⟩

/-- A night that begins on a Wednesday is outside the window of the day, and in the window of the
night in that week and in the next, which is in March. -/
theorem active_by_arc_and_weekday_at_eve :
    evening ≠ morning ∧
      (Window.mk .workdays evening morning).isActiveAt eve = true ∧
      ¬ (Window.mk .daily morning evening).isActiveAt eve = true ∧
      (eve.daysLater 7).moment.date = ⟨2024, 3, 6, by decide, by decide⟩ ∧
      (Window.mk .workdays evening morning).isActiveAt (eve.daysLater 7) = true ∧
      (Window.mk .daily evening evening).isActiveAt eve = false := by
  have hne : evening ≠ morning := by decide
  have hnight := active_by_arc_and_weekday evening morning eve
  have hempty := (active_by_arc_and_weekday evening evening eve).empty rfl
  have hdaily : (Window.mk .daily evening morning).isActiveAt eve = true :=
    hnight.arc.mpr (by decide)
  have hday : eve.moment.date.IsWorkday := by
    unfold Date.IsWorkday
    decide
  have hactive := hnight.workdays.mpr ⟨hdaily, hday⟩
  refine ⟨hne, hactive, ?_, by decide, ?_, hempty⟩
  · exact fun h => (hnight.exchanged hne).mp h hdaily
  · rw [hnight.weekly]
    exact hactive

end Sample

end Window

end Recon
