/-
# Texts of dates, times and instants

Dates are written year first; a year from 0 to 9999 has four digits, any other a sign
and at least four.  The fraction of a second is left out where it is zero and has
three, six or nine digits otherwise, the fewest that lose nothing; a leap second is
shown as second 60.  An instant in universal time ends in `+00:00`
(`DateTime.instantText`).
-/

import EntityQuery.Calendar.Time
import EntityQuery.Text.Decimal

namespace EntityQuery
namespace Calendar

open Text (digits padded)

/-- The text of a year. -/
def yearText (y : Int) : List Char :=
  if 0 ≤ y ∧ y ≤ 9999 then padded 4 y.toNat
  else
    (if y < 0 then '-' else '+') ::
      (if y.natAbs ≤ 9999 then padded 4 y.natAbs else digits y.natAbs)

/-- The text of a date: year, month and day with hyphens between them. -/
def Date.text (d : Date) : List Char :=
  yearText d.year ++ '-' :: padded 2 d.month ++ '-' :: padded 2 d.day

/-- The text of a fraction of a second: none, three, six or nine digits. -/
def fractionText (n : Nat) : List Char :=
  if n = 0 then []
  else if n % 1000000 = 0 then '.' :: padded 3 (n / 1000000)
  else if n % 1000 = 0 then '.' :: padded 6 (n / 1000)
  else '.' :: padded 9 n

/-- The second that a clock shows: one more within a leap second. -/
def TimeOfDay.shownSecond (t : TimeOfDay) : Nat := t.second + t.nanosecond / 1000000000

/-- The text of a time of day. -/
def TimeOfDay.text (t : TimeOfDay) : List Char :=
  padded 2 t.hour ++ ':' :: padded 2 t.minute ++ ':' :: padded 2 t.shownSecond
    ++ fractionText (t.nanosecond % 1000000000)

/-- The text of a date-time with a separator between its parts. -/
def DateTime.text (separator : Char) (t : DateTime) : List Char :=
  t.date.text ++ separator :: t.time.text

/-- The text of an offset; its seconds are written only if there are any. -/
def Offset.text (o : Offset) : List Char :=
  let n := o.seconds.natAbs
  (if o.seconds < 0 then '-' else '+') ::
    (padded 2 (n / 3600) ++ ':' :: padded 2 (n / 60 % 60)
      ++ if n % 60 = 0 then [] else ':' :: padded 2 (n % 60))

/-- The text of an instant, read in universal time. -/
def DateTime.instantText (t : DateTime) : List Char := t.text 'T' ++ "+00:00".toList

/-- The text of an instant as a clock at its offset shows it. -/
def ZonedDateTime.text (z : ZonedDateTime) : List Char :=
  z.localTime.text 'T' ++ z.offset.text

end Calendar
end EntityQuery
