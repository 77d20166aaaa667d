/-
# The order of texts of dates and times

Years of four digits, months, days, hours, minutes and seconds are written with a fixed
width, the longest unit first, so texts are ordered as the units are.  A fraction of a
second is written in groups of three digits, and as few of them as lose nothing: the first
different group decides, and where one text has no further group it stands first, for what
follows the fraction is nothing or a plus sign, which is before all digits and the point
(`fractionText_append_lt_iff`).  A leap second is shown as second 60, behind all that starts
with second 59.

So texts of dates, times of day and date-times are in the order of time
(`Date.text_lt_iff`, `TimeOfDay.text_append_lt_iff`, `DateTime.text_append_lt_iff`).
-/

import EntityQuery.Proofs.Calendar.Chronology
import EntityQuery.Proofs.Calendar.Plain
import EntityQuery.Proofs.Text.Bytes
import EntityQuery.Proofs.Text.Order

namespace EntityQuery
namespace Calendar

open Text

-- powers of natural numbers are core's own, whatever is imported beside this module
attribute [local instance (high)] instPowNat

variable {s : List Char}

/-! ### Fractions -/

/-- The digits of a fraction in groups of three, without groups of zeros at the end. -/
def fractionGroups (n : Nat) : List Nat :=
  if n = 0 then []
  else if n % 1000000 = 0 then [n / 1000000]
  else if n % 1000 = 0 then [n / 1000000, n / 1000 % 1000]
  else [n / 1000000, n / 1000 % 1000, n % 1000]

/-- A group of a fraction has no more than three digits. -/
theorem fractionGroups_lt {n : Nat} (h : n < 1000000000) : ∀ k ∈ fractionGroups n, k < 1000 := by
  unfold fractionGroups
  split_ifs <;> simp only [List.forall_mem_cons, List.not_mem_nil, IsEmpty.forall_iff,
    implies_true, and_true] <;> omega

/-- Fractions are ordered by their first different group. -/
theorem fractionGroups_lt_iff {m n : Nat} : fractionGroups m < fractionGroups n ↔ m < n := by
  unfold fractionGroups
  split_ifs <;> simp only [List.cons_lt_cons_iff, List.lt_irrefl, List.nil_lt_cons,
    List.not_lt_nil, and_false, or_false, and_true, true_iff, false_iff] <;> omega

/-- A fraction is written group by group behind a point, and not at all if it is zero. -/
theorem fractionText_eq (n : Nat) :
    fractionText n = if n = 0 then [] else '.' :: (fractionGroups n).flatMap (padded 3) := by
  have hmicro : ∀ k, padded 6 k = padded 3 (k / 1000) ++ padded 3 (k % 1000) := fun k => by
    rw [padded_mod 3 k]
    exact padded_add 3 3 k
  have hnano : padded 9 n = padded 3 (n / 1000000) ++ padded 6 (n % 1000000) := by
    rw [padded_mod 6 n]
    exact padded_add 3 6 n
  have hmiddle : n / 1000 / 1000 = n / 1000000 ∧ n % 1000000 / 1000 = n / 1000 % 1000 ∧
      n % 1000000 % 1000 = n % 1000 := by omega
  unfold fractionText fractionGroups
  split_ifs
  · rfl
  · rw [List.flatMap_singleton]
  · rw [hmicro, hmiddle.1, List.flatMap_cons, List.flatMap_singleton]
  · rw [hnano, hmicro, hmiddle.2.1, hmiddle.2.2, List.flatMap_cons, List.flatMap_cons,
      List.flatMap_singleton]

/-- **Texts of fractions are ordered as the fractions,** whatever stands behind them both and
starts before the point. -/
theorem fractionText_append_lt_iff (hs : BeforePoint s) {m n : Nat} (hm : m < 1000000000)
    (hn : n < 1000000000) : fractionText m ++ s < fractionText n ++ s ↔ m < n := by
  have hpoint : ∀ t, s < '.' :: t := hs.lt_cons (Std.le_refl _)
  rw [fractionText_eq, fractionText_eq]
  by_cases hm0 : m = 0 <;> by_cases hn0 : n = 0
  · rw [if_pos hm0, if_pos hn0]
    exact iff_of_false (List.lt_irrefl _) (by omega)
  · rw [if_pos hm0, if_neg hn0]
    exact iff_of_true (hpoint _) (by omega)
  · rw [if_neg hm0, if_pos hn0]
    exact iff_of_false (List.lt_asymm (hpoint _)) (by omega)
  · rw [if_neg hm0, if_neg hn0, List.cons_append, List.cons_append, List.cons_lt_cons_self,
      flatMap_padded_append_lt_iff hs (fractionGroups_lt hm) (fractionGroups_lt hn),
      fractionGroups_lt_iff]

/-! ### Dates -/

namespace Date

variable {a b : Date}

/-- **Texts of dates are in the order of days,** and equal ones are ordered by what follows
them. -/
theorem text_append_lt_iff (ha : a.FourDigits) (hb : b.FourDigits) {t : List Char} :
    a.text ++ s < b.text ++ t ↔ a.Before b ∨ a = b ∧ s < t := by
  rw [text_append, text_append, ha.yearText_eq, hb.yearText_eq,
    padded_append_lt_iff ha.year_lt hb.year_lt, List.cons_lt_cons_self,
    padded_append_lt_iff a.month_lt b.month_lt, List.cons_lt_cons_self,
    padded_append_lt_iff a.day_lt b.day_lt, before_iff, eq_iff]
  have hya := ha.1
  have hyb := hb.1
  by_cases hst : s < t <;> simp only [hst, and_true, and_false, or_false] <;> omega

/-- **The texts of dates are in the order of the days,** in years of four digits. -/
theorem text_lt_iff (ha : a.FourDigits) (hb : b.FourDigits) : a.text < b.text ↔ a.Before b := by
  have h := text_append_lt_iff ha hb (s := []) (t := [])
  simpa only [List.append_nil, List.not_lt_nil, and_false, or_false] using h

end Date

/-! ### Times of day -/

namespace TimeOfDay

variable {a b : TimeOfDay}

/-- Times are ordered by what a clock shows of them. -/
theorem before_iff (ha : a.Regular) (hb : b.Regular) :
    a.Before b ↔ a.hour < b.hour ∨ a.hour = b.hour ∧ (a.minute < b.minute ∨
      a.minute = b.minute ∧ (a.shownSecond < b.shownSecond ∨ a.shownSecond = b.shownSecond ∧
        a.nanosecond % 1000000000 < b.nanosecond % 1000000000)) := by
  have := a.minute_lt
  have := b.minute_lt
  have := a.second_lt
  have := b.second_lt
  have := a.nanosecond_lt
  have := b.nanosecond_lt
  unfold Regular at ha hb
  unfold Before secondOfDay shownSecond
  omega

/-- **Texts of times are in the order of time,** leap seconds and fractions of all widths
included. -/
theorem text_append_lt_iff (ha : a.Regular) (hb : b.Regular) (hs : BeforePoint s) :
    a.text ++ s < b.text ++ s ↔ a.Before b := by
  have hhour : ∀ t : TimeOfDay, t.hour < 10 ^ (2 : Nat) := fun t =>
    Nat.lt_trans t.hour_lt (by decide)
  have hminute : ∀ t : TimeOfDay, t.minute < 10 ^ (2 : Nat) := fun t =>
    Nat.lt_trans t.minute_lt (by decide)
  simp only [text, List.append_assoc, List.cons_append]
  rw [padded_append_lt_iff (hhour a) (hhour b), List.cons_lt_cons_self,
    padded_append_lt_iff (hminute a) (hminute b), List.cons_lt_cons_self,
    padded_append_lt_iff a.shownSecond_lt b.shownSecond_lt,
    fractionText_append_lt_iff hs (Nat.mod_lt _ (by decide)) (Nat.mod_lt _ (by decide)),
    before_iff ha hb]

end TimeOfDay

/-! ### Date-times -/

namespace DateTime

variable {a b : DateTime}

/-- **Texts of date-times are in the order of time.** -/
theorem text_append_lt_iff (ha : a.date.FourDigits) (ha' : a.time.Regular)
    (hb : b.date.FourDigits) (hb' : b.time.Regular) (separator : Char) (hs : BeforePoint s) :
    a.text separator ++ s < b.text separator ++ s ↔ a.Before b := by
  simp only [text, List.append_assoc, List.cons_append]
  rw [Date.text_append_lt_iff ha hb, List.cons_lt_cons_self,
    TimeOfDay.text_append_lt_iff ha' hb' hs, before_iff]

end DateTime

/-! ### Characters of texts -/

/-- The text of a year is ASCII. -/
theorem ascii_yearText (y : Int) : Ascii (yearText y) := by
  by_cases h : 0 ≤ y ∧ y ≤ 9999
  · rw [yearText, if_pos h]
    exact ascii_padded 4 _
  · obtain ⟨ds, hyear, hds⟩ := Reader.yearText_of_signed h
    rw [hyear]
    exact (ascii_of_isDigit hds.isDigit).cons (by split <;> decide)

/-- The text of a fraction is ASCII. -/
theorem ascii_fractionText (n : Nat) : Ascii (fractionText n) := by
  unfold fractionText
  split_ifs
  · exact fun _ hc => absurd hc List.not_mem_nil
  all_goals exact (ascii_padded _ _).cons (by decide)

/-- The text of a date is ASCII. -/
theorem Date.ascii_text (d : Date) : Ascii d.text :=
  ((ascii_yearText _).append ((ascii_padded 2 _).cons (by decide))).append
    ((ascii_padded 2 _).cons (by decide))

/-- The text of a time of day is ASCII. -/
theorem TimeOfDay.ascii_text (t : TimeOfDay) : Ascii t.text :=
  (((ascii_padded 2 _).append ((ascii_padded 2 _).cons (by decide))).append
    ((ascii_padded 2 _).cons (by decide))).append (ascii_fractionText _)

/-- The text of a date-time is ASCII if what separates date and time is. -/
theorem DateTime.ascii_text (t : DateTime) {separator : Char} (h : separator.toNat < 128) :
    Ascii (t.text separator) :=
  t.date.ascii_text.append (t.time.ascii_text.cons h)

end Calendar
end EntityQuery
