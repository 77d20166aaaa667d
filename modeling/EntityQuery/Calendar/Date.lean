/-
# Dates of the Gregorian calendar

A `Date` is a day of the Gregorian calendar carried on in both directions, year 0
before year 1.  Dates are counted from 1970-01-01 by `Date.dayNumber` and built from
that count by `Date.ofDayNumber?`; `next` and `prev` are the neighbouring days.
`Date.Supported` bounds the years that readers and constructors accept.
-/

namespace EntityQuery
namespace Calendar

/-- Every fourth year, but of the full centuries only every fourth. -/
def isLeapYear (y : Int) : Bool := y % 4 = 0 && (y % 100 ≠ 0 || y % 400 = 0)

/-- The number of days of a month, `0` for a number that names no month. -/
def daysInMonth (y : Int) (m : Nat) : Nat :=
  if m = 2 then (if isLeapYear y then 29 else 28)
  else if m = 4 ∨ m = 6 ∨ m = 9 ∨ m = 11 then 30
  else if 1 ≤ m ∧ m ≤ 12 then 31
  else 0

/-- No month has more than 31 days. -/
theorem daysInMonth_le (y : Int) (m : Nat) : daysInMonth y m ≤ 31 := by
  unfold daysInMonth
  repeat' split
  all_goals omega

/-- Only a number that is no month has no days. -/
theorem daysInMonth_eq_zero_iff (y : Int) (m : Nat) :
    daysInMonth y m = 0 ↔ m = 0 ∨ 12 < m := by
  unfold daysInMonth
  repeat' split
  all_goals omega

/-- Every month has at least 28 days. -/
theorem le_daysInMonth (y : Int) {m : Nat} (h1 : 1 ≤ m) (h2 : m ≤ 12) :
    28 ≤ daysInMonth y m := by
  unfold daysInMonth
  repeat' split
  all_goals omega

/-- A day of the Gregorian calendar. -/
structure Date where
  year : Int
  month : Nat
  day : Nat
  day_pos : 1 ≤ day
  day_le : day ≤ daysInMonth year month
deriving DecidableEq

namespace Date

/-- The month of a date is one of the twelve. -/
theorem month_bounds (d : Date) : 1 ≤ d.month ∧ d.month ≤ 12 := by
  have h1 := d.day_pos
  have h2 := d.day_le
  have h3 := daysInMonth_eq_zero_iff d.year d.month
  omega

/-- No date is behind the 31st of its month. -/
theorem day_le_31 (d : Date) : d.day ≤ 31 := Nat.le_trans d.day_le (daysInMonth_le ..)

/-- The date with a given year, month and day, if there is one. -/
def of? (y : Int) (m d : Nat) : Option Date :=
  if h : 1 ≤ d ∧ d ≤ daysInMonth y m then some ⟨y, m, d, h.1, h.2⟩ else none

/-- A date is found again from its year, month and day. -/
@[simp]
theorem of?_self (d : Date) : of? d.year d.month d.day = some d := by
  simp [of?, d.day_pos, d.day_le]

/-- The years that readers and constructors accept. -/
def Supported (d : Date) : Prop := -262143 ≤ d.year ∧ d.year ≤ 262142

instance (d : Date) : Decidable d.Supported := inferInstanceAs (Decidable (_ ∧ _))

/-- Days from 1970-01-01 to a date.  Years are taken from March on, so that the leap
day is the last of its year. -/
def dayNumber (d : Date) : Int :=
  let y := if d.month ≤ 2 then d.year - 1 else d.year
  let dayOfYear : Int := (153 * ((d.month + 9) % 12) + 2) / 5 + d.day - 1
  y * 365 + y / 4 - y / 100 + y / 400 + dayOfYear - 719468

/-- The date that lies `n` days after 1970-01-01. -/
def ofDayNumber? (n : Int) : Option Date :=
  let n := n + 719468
  let era := n / 146097
  let dayOfEra := n % 146097
  let yearOfEra := (dayOfEra - dayOfEra / 1460 + dayOfEra / 36524 - dayOfEra / 146096) / 365
  let dayOfYear := dayOfEra - (365 * yearOfEra + yearOfEra / 4 - yearOfEra / 100)
  let fromMarch := (5 * dayOfYear + 2) / 153
  let day := dayOfYear - (153 * fromMarch + 2) / 5 + 1
  let month := if fromMarch < 10 then fromMarch + 3 else fromMarch - 9
  of? (yearOfEra + era * 400 + if month ≤ 2 then 1 else 0) month.toNat day.toNat

/-- The day after a date. -/
def next (d : Date) : Date :=
  if h : d.day < daysInMonth d.year d.month then
    ⟨d.year, d.month, d.day + 1, by omega, h⟩
  else if h : d.month < 12 then
    ⟨d.year, d.month + 1, 1, Nat.le_refl _,
      Nat.le_trans (by decide) (le_daysInMonth _ (by omega) (by omega))⟩
  else ⟨d.year + 1, 1, 1, Nat.le_refl _, by simp [daysInMonth]⟩

/-- The day before a date. -/
def prev (d : Date) : Date :=
  if h : 1 < d.day then
    ⟨d.year, d.month, d.day - 1, by omega, Nat.le_trans (by omega) d.day_le⟩
  else if h : 1 < d.month then
    ⟨d.year, d.month - 1, daysInMonth d.year (d.month - 1),
      Nat.le_trans (by decide)
        (le_daysInMonth _ (by omega) (by have := d.month_bounds; omega)),
      Nat.le_refl _⟩
  else ⟨d.year - 1, 12, 31, by decide, by simp [daysInMonth]⟩

end Date

end Calendar
end EntityQuery
