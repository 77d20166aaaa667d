/-
# Times of day and date-times

A `TimeOfDay` counts nanoseconds beyond a full second up to two seconds: from
`10 ^ 9` on they belong to a leap second, which a clock shows as second 60 of the
minute.  A `DateTime` is a date and a time of day; as an instant it is read in
universal time.  `DateTime.ofUnix?` and `DateTime.unixSeconds` convert from and to
seconds since 1970, and `DateTime.shift` moves a date-time by less than a day.
-/

import EntityQuery.Calendar.Date

namespace EntityQuery
namespace Calendar

/-- A time of day; nanoseconds from `10 ^ 9` on are those of a leap second. -/
structure TimeOfDay where
  hour : Nat
  minute : Nat
  second : Nat
  nanosecond : Nat
  hour_lt : hour < 24
  minute_lt : minute < 60
  second_lt : second < 60
  nanosecond_lt : nanosecond < 2000000000
deriving DecidableEq

namespace TimeOfDay

/-- A leap second stands at the end of a minute. -/
def Regular (t : TimeOfDay) : Prop := 1000000000 ≤ t.nanosecond → t.second = 59

instance (t : TimeOfDay) : Decidable t.Regular :=
  inferInstanceAs (Decidable (_ → _))

/-- The time of day with given parts, if they are in range. -/
def of? (hour minute second nanosecond : Nat) : Option TimeOfDay :=
  if h : hour < 24 ∧ minute < 60 ∧ second < 60 ∧ nanosecond < 2000000000 then
    some ⟨hour, minute, second, nanosecond, h.1, h.2.1, h.2.2.1, h.2.2.2⟩
  else none

/-- A time of day is found again from its parts. -/
@[simp]
theorem of?_self (t : TimeOfDay) : of? t.hour t.minute t.second t.nanosecond = some t := by
  simp [of?, t.hour_lt, t.minute_lt, t.second_lt, t.nanosecond_lt]

/-- Full seconds since midnight. -/
def secondOfDay (t : TimeOfDay) : Nat := t.hour * 3600 + t.minute * 60 + t.second

/-- A day has 86400 seconds, and no time of day is behind them. -/
theorem secondOfDay_lt (t : TimeOfDay) : t.secondOfDay < 86400 := by
  have := t.hour_lt
  have := t.minute_lt
  have := t.second_lt
  unfold secondOfDay
  omega

/-- The same fraction of a second at another second of the day. -/
def atSecond (t : TimeOfDay) (s : Nat) (h : s < 86400) : TimeOfDay :=
  ⟨s / 3600, s / 60 % 60, s % 60, t.nanosecond,
    by omega, by omega, by omega, t.nanosecond_lt⟩

/-- A time of day is at its own second. -/
@[simp]
theorem atSecond_secondOfDay (t : TimeOfDay) :
    t.atSecond t.secondOfDay t.secondOfDay_lt = t := by
  have h1 := t.hour_lt
  have h2 := t.minute_lt
  have h3 := t.second_lt
  have e1 : t.secondOfDay / 3600 = t.hour := by unfold secondOfDay; omega
  have e2 : t.secondOfDay / 60 % 60 = t.minute := by unfold secondOfDay; omega
  have e3 : t.secondOfDay % 60 = t.second := by unfold secondOfDay; omega
  cases t
  simp_all [atSecond]

/-- A time of day by its second and nanoseconds, if a clock can show it. -/
def ofSecond? (second nanosecond : Nat) : Option TimeOfDay :=
  if nanosecond < 1000000000 ∨ second % 60 = 59 then
    of? (second / 3600) (second / 60 % 60) (second % 60) nanosecond
  else none

end TimeOfDay

/-- A date and a time of day. -/
structure DateTime where
  date : Date
  time : TimeOfDay
deriving DecidableEq

namespace DateTime

/-- A date-time that clocks show and constructors accept. -/
def Regular (t : DateTime) : Prop := t.date.Supported ∧ t.time.Regular

instance (t : DateTime) : Decidable t.Regular := inferInstanceAs (Decidable (_ ∧ _))

/-- Full seconds since the start of 1970. -/
def unixSeconds (t : DateTime) : Int := t.date.dayNumber * 86400 + t.time.secondOfDay

/-- The date-time a number of seconds after the start of 1970, if it is regular. -/
def ofUnix? (seconds : Int) (nanosecond : Nat) : Option DateTime := do
  let date ← Date.ofDayNumber? (seconds / 86400)
  let time ← TimeOfDay.ofSecond? (seconds % 86400).toNat nanosecond
  if date.Supported then some ⟨date, time⟩ else none

/-- A date-time moved by some seconds, fewer than a day has.  The fraction of the
second stays, that of a leap second too. -/
def shift (t : DateTime) (seconds : Int) : DateTime :=
  let s : Int := t.time.secondOfDay + seconds
  if h : (s % 86400).toNat < 86400 then
    let time := t.time.atSecond (s % 86400).toNat h
    if s < 0 then ⟨t.date.prev, time⟩
    else if s < 86400 then ⟨t.date, time⟩
    else ⟨t.date.next, time⟩
  else t

/-- Shifting by no seconds changes nothing. -/
@[simp]
theorem shift_zero (t : DateTime) : t.shift 0 = t := by
  have h := t.time.secondOfDay_lt
  have e : ((t.time.secondOfDay : Int) % 86400).toNat = t.time.secondOfDay := by omega
  have hn : ¬ ((t.time.secondOfDay : Int) < 0) := by omega
  have hl : (t.time.secondOfDay : Int) < 86400 := by omega
  simp only [shift, Int.add_zero, hn, hl, if_true, if_false, e, h, dite_true,
    TimeOfDay.atSecond_secondOfDay]

end DateTime

/-- A distance from universal time, in seconds to the east, of less than a day. -/
structure Offset where
  seconds : Int
  gt_neg_day : -86400 < seconds
  lt_day : seconds < 86400
deriving DecidableEq

/-- The offset of a number of seconds, if it is less than a day. -/
def Offset.of? (seconds : Int) : Option Offset :=
  if h : -86400 < seconds ∧ seconds < 86400 then some ⟨seconds, h.1, h.2⟩ else none

/-- An instant in universal time together with the offset it is shown at. -/
structure ZonedDateTime where
  utc : DateTime
  offset : Offset
deriving DecidableEq

/-- What a clock at the offset shows. -/
def ZonedDateTime.localTime (z : ZonedDateTime) : DateTime := z.utc.shift z.offset.seconds

end Calendar
end EntityQuery
