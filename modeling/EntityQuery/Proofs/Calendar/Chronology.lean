/-
# The order of time

Dates are ordered by the days since 1970, times of day by the seconds since midnight, and
date-times by the seconds since 1970.  Within one second the nanoseconds decide, and those
of a leap second stand behind all others, for they start at `10 ^ 9`.

A month ends where the next one begins (`Date.firstOfMonth_succ`), so the order of days is
that of year, month and day of the month (`Date.before_iff`), and the order of date-times is
that of their dates and then of their times (`DateTime.before_iff`).
-/

import EntityQuery.Calendar.Time
import Mathlib.Order.Monotone.Basic
import Mathlib.Tactic.IntervalCases
import Mathlib.Tactic.SplitIfs

namespace EntityQuery
namespace Calendar

/-! ### Dates -/

namespace Date

variable {a b d : Date} {y z : Int} {m n : Nat}

/-- One day is before another. -/
def Before (a b : Date) : Prop := a.dayNumber < b.dayNumber

instance (a b : Date) : Decidable (a.Before b) := inferInstanceAs (Decidable (_ < _))

/-- Days from 1970-01-01 to the first of a month. -/
def firstOfMonth (y : Int) (m : Nat) : Int :=
  let y := if m ≤ 2 then y - 1 else y
  y * 365 + y / 4 - y / 100 + y / 400 + (153 * ((m + 9) % 12) + 2) / 5 - 719468

/-- The number of a day is that of the first of its month and the days since. -/
theorem dayNumber_eq (d : Date) : d.dayNumber = firstOfMonth d.year d.month + d.day - 1 := by
  simp only [dayNumber, firstOfMonth]
  omega

/-- No day comes before the first of its month. -/
theorem firstOfMonth_le (d : Date) : firstOfMonth d.year d.month ≤ d.dayNumber := by
  have hday := d.day_pos
  rw [dayNumber_eq]
  omega

/-- February ends where March begins, with the leap day if there is one. -/
theorem firstOfMonth_march (y : Int) : firstOfMonth y 3 = firstOfMonth y 2 + daysInMonth y 2 := by
  have hleap : isLeapYear y = true ↔ y % 4 = 0 ∧ (y % 100 ≠ 0 ∨ y % 400 = 0) := by
    simp [isLeapYear]
  simp only [firstOfMonth, daysInMonth, if_true, reduceIte, Nat.reduceLeDiff]
  split_ifs with h <;> rw [hleap] at h <;> push_cast <;> omega

/-- **A month ends where the next one begins.** -/
theorem firstOfMonth_succ (y : Int) (hm : 1 ≤ m) (hm' : m < 12) :
    firstOfMonth y (m + 1) = firstOfMonth y m + daysInMonth y m := by
  by_cases hfebruary : m = 2
  · rw [hfebruary]
    exact firstOfMonth_march y
  · -- the length of any other month does not depend on the year
    interval_cases m
    case «2» => exact absurd rfl hfebruary
    all_goals
      simp only [firstOfMonth, daysInMonth, reduceIte, Nat.reduceLeDiff, Nat.reduceAdd,
        Nat.reduceEqDiff, OfNat.one_ne_ofNat, or_true, or_false, and_true]
      omega

/-- The months of a year begin one behind the other. -/
theorem firstOfMonth_mono (y : Int) (hm : 1 ≤ m) (hmn : m ≤ n) (hn : n ≤ 12) :
    firstOfMonth y m ≤ firstOfMonth y n := by
  induction n, hmn using Nat.le_induction with
  | base => exact Int.le_refl _
  | succ n hmn ih =>
    have hnext := firstOfMonth_succ y (Nat.le_trans hm hmn) hn
    have hmonths := ih (Nat.le_of_succ_le hn)
    omega

/-- Years begin one behind the other. -/
theorem firstOfYear_mono (h : y ≤ z) : firstOfMonth y 1 ≤ firstOfMonth z 1 := by
  simp only [firstOfMonth, reduceIte, Nat.reduceLeDiff]
  omega

/-- A year ends where the next one begins. -/
theorem firstOfYear_succ (y : Int) : firstOfMonth (y + 1) 1 = firstOfMonth y 12 + 31 := by
  simp only [firstOfMonth, reduceIte, Nat.reduceLeDiff]
  omega

/-- A day of an earlier month of the year is earlier. -/
theorem before_of_month_lt (hyear : a.year = b.year) (h : a.month < b.month) : a.Before b := by
  have ha := a.month_bounds
  have hb := b.month_bounds
  have hlast := a.day_le
  calc a.dayNumber < firstOfMonth a.year (a.month + 1) := by
        rw [a.dayNumber_eq, firstOfMonth_succ _ ha.1 (by omega)]
        omega
    _ ≤ firstOfMonth b.year b.month := hyear ▸ firstOfMonth_mono a.year (by omega) h hb.2
    _ ≤ b.dayNumber := b.firstOfMonth_le

/-- A day of an earlier year is earlier. -/
theorem before_of_year_lt (h : a.year < b.year) : a.Before b := by
  have ha := a.month_bounds
  have hb := b.month_bounds
  have hlast := a.day_le_31
  have hmonths := firstOfMonth_mono a.year ha.1 ha.2 (Nat.le_refl 12)
  calc a.dayNumber < firstOfMonth (a.year + 1) 1 := by
        rw [a.dayNumber_eq, firstOfYear_succ]
        omega
    _ ≤ firstOfMonth b.year 1 := firstOfYear_mono h
    _ ≤ firstOfMonth b.year b.month := firstOfMonth_mono b.year (Nat.le_refl 1) hb.1 hb.2
    _ ≤ b.dayNumber := b.firstOfMonth_le

/-- **Days are ordered by year, month and day of the month.** -/
theorem before_iff : a.Before b ↔ a.year < b.year ∨ a.year = b.year ∧
    (a.month < b.month ∨ a.month = b.month ∧ a.day < b.day) := by
  have hday : a.year = b.year → a.month = b.month → (a.Before b ↔ a.day < b.day) := by
    intro hyear hmonth
    rw [Before, a.dayNumber_eq, b.dayNumber_eq, hyear, hmonth]
    omega
  rcases Int.lt_trichotomy a.year b.year with h | h | h
  · exact iff_of_true (before_of_year_lt h) (.inl h)
  · rcases Nat.lt_trichotomy a.month b.month with h' | h' | h'
    · exact iff_of_true (before_of_month_lt h h') (.inr ⟨h, .inl h'⟩)
    · rw [hday h h']
      omega
    · exact iff_of_false (Int.lt_asymm (before_of_month_lt h.symm h')) (by omega)
  · exact iff_of_false (Int.lt_asymm (before_of_year_lt h)) (by omega)

/-- A date is its year, month and day. -/
theorem eq_iff : a = b ↔ a.year = b.year ∧ a.month = b.month ∧ a.day = b.day := by
  cases a
  cases b
  simp

/-- Of two different days, one is before the other. -/
theorem eq_iff_not_before : a = b ↔ ¬ a.Before b ∧ ¬ b.Before a := by
  rw [before_iff, before_iff, eq_iff]
  omega

/-- Days are told apart by their numbers. -/
theorem dayNumber_inj : a.dayNumber = b.dayNumber ↔ a = b := by
  rw [eq_iff_not_before]
  unfold Before
  omega

end Date

/-! ### Times of day -/

namespace TimeOfDay

variable {a b : TimeOfDay}

/-- One time of a day is before another. -/
def Before (a b : TimeOfDay) : Prop :=
  a.secondOfDay < b.secondOfDay ∨ a.secondOfDay = b.secondOfDay ∧ a.nanosecond < b.nanosecond

instance (a b : TimeOfDay) : Decidable (a.Before b) := inferInstanceAs (Decidable (_ ∨ _))

/-- A time of day is its second of the day and its nanosecond. -/
theorem eq_iff : a = b ↔ a.secondOfDay = b.secondOfDay ∧ a.nanosecond = b.nanosecond := by
  refine ⟨fun h => h ▸ ⟨rfl, rfl⟩, fun ⟨hsecond, hnanosecond⟩ => ?_⟩
  rw [← a.atSecond_secondOfDay, ← b.atSecond_secondOfDay]
  simp only [atSecond, hsecond, hnanosecond]

/-- Of two different times, one is before the other. -/
theorem eq_iff_not_before : a = b ↔ ¬ a.Before b ∧ ¬ b.Before a := by
  rw [eq_iff]
  unfold Before
  omega

end TimeOfDay

/-! ### Date-times -/

namespace DateTime

variable {a b : DateTime}

/-- One date-time is before another. -/
def Before (a b : DateTime) : Prop :=
  a.unixSeconds < b.unixSeconds ∨
    a.unixSeconds = b.unixSeconds ∧ a.time.nanosecond < b.time.nanosecond

instance (a b : DateTime) : Decidable (a.Before b) := inferInstanceAs (Decidable (_ ∨ _))

/-- **Date-times are ordered by their dates, then by their times.** -/
theorem before_iff :
    a.Before b ↔ a.date.Before b.date ∨ a.date = b.date ∧ a.time.Before b.time := by
  have ha := a.time.secondOfDay_lt
  have hb := b.time.secondOfDay_lt
  rw [← Date.dayNumber_inj]
  unfold Before Date.Before TimeOfDay.Before unixSeconds
  omega

/-- A date-time is its date and its time of day. -/
theorem eq_iff : a = b ↔ a.date = b.date ∧ a.time = b.time := by
  cases a
  cases b
  simp

/-- Of two different date-times, one is before the other. -/
theorem eq_iff_not_before : a = b ↔ ¬ a.Before b ∧ ¬ b.Before a := by
  rw [before_iff, before_iff, eq_iff, ← Date.dayNumber_inj, ← Date.dayNumber_inj, TimeOfDay.eq_iff]
  unfold Date.Before TimeOfDay.Before
  omega

end DateTime
end Calendar
end EntityQuery
