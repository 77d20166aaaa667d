/-
# Texts of instants

The text of an instant has fields of fixed width if its year has four digits of its own,
and is then read in interchange form as the instant it was written from
(`readTimestamp?_instantText`), with the fraction and the leap second.  A leap second
anywhere but at the end of a minute is shown as a second that it is not.

Outside the years from 0 to 9999 the text starts with a sign.  The interchange form has no
place for it; the plain form takes a year with a sign, but goes on with a blank where the
text has a `T`.  So no such text is read.
-/

import EntityQuery.Proofs.Calendar.Fields

namespace EntityQuery
namespace Calendar

open Reader
open Text (padded)

-- powers of natural numbers are core's own, whatever is imported beside this module
attribute [local instance (high)] instPowNat

namespace Date

variable {d : Date}

/-- A year of four digits, none of which is a sign. -/
def FourDigits (d : Date) : Prop := 0 ≤ d.year ∧ d.year ≤ 9999

instance (d : Date) : Decidable d.FourDigits := inferInstanceAs (Decidable (_ ∧ _))

/-- A year of four digits is written with four digits. -/
theorem FourDigits.yearText_eq (h : d.FourDigits) : yearText d.year = padded 4 d.year.toNat :=
  if_pos h

/-- A year of four digits has no more than these. -/
theorem FourDigits.year_lt (h : d.FourDigits) : d.year.toNat < 10 ^ (4 : Nat) := by
  have := h.2
  omega

/-- A month has no more than two digits. -/
theorem month_lt (d : Date) : d.month < 10 ^ (2 : Nat) := by
  have := d.month_bounds
  omega

/-- A day of a month has no more than two digits. -/
theorem day_lt (d : Date) : d.day < 10 ^ (2 : Nat) := by
  have := d.day_le_31
  omega

end Date

/-! ### What a clock shows -/

namespace TimeOfDay

variable (t : TimeOfDay)

/-- A time of day as it is read from what a clock shows of it. -/
def shown? : Option TimeOfDay :=
  shownTime? t.hour t.minute t.shownSecond (t.nanosecond % 1000000000)

/-- A second as a clock shows it has no more than two digits, the leap second included. -/
theorem shownSecond_lt : t.shownSecond < 10 ^ (2 : Nat) := by
  have hsecond := t.second_lt
  have hnanosecond := t.nanosecond_lt
  unfold shownSecond
  omega

/-- **A time of day is read from what a clock shows if and only if it is regular:** a leap
second that is not the last of its minute is shown as the second after it. -/
theorem shown?_eq_self_iff : t.shown? = some t ↔ t.Regular := by
  have hsecond := t.second_lt
  have hnanosecond := t.nanosecond_lt
  unfold shown? shownTime? shownSecond Regular
  by_cases hleap : 1000000000 ≤ t.nanosecond
  · have hone : t.nanosecond / 1000000000 = 1 := by omega
    by_cases hlast : t.second = 59
    · have hnanos : 1000000000 + t.nanosecond % 1000000000 = t.nanosecond := by omega
      rw [if_pos (by omega), hnanos, ← hlast, of?_self]
      exact iff_of_true rfl fun _ => rfl
    · rw [if_neg (by omega), hone]
      refine iff_of_false (fun h => ?_) fun h => hlast (h hleap)
      have hsucc : t.second + 1 = t.second := by
        unfold of? at h
        split at h
        · exact congrArg second (Option.some.inj h)
        · cases h
      omega
  · have hzero : t.nanosecond / 1000000000 = 0 := by omega
    rw [if_neg (by omega), hzero, Nat.add_zero, Nat.mod_eq_of_lt (by omega), of?_self]
    exact iff_of_true rfl fun h => absurd h hleap

end TimeOfDay

/-! ### Reading the text of an instant -/

namespace DateTime

variable {t : DateTime}

/-- The text of a date-time and what follows it, field by field. -/
theorem text_append (t : DateTime) (separator : Char) (rest : List Char) :
    t.text separator ++ rest = yearText t.date.year ++ '-' :: (padded 2 t.date.month ++
      '-' :: (padded 2 t.date.day ++ separator :: (padded 2 t.time.hour ++
      ':' :: (padded 2 t.time.minute ++ ':' :: (padded 2 t.time.shownSecond ++
      (fractionText (t.time.nanosecond % 1000000000) ++ rest)))))) := by
  simp only [text, Date.text, TimeOfDay.text, List.append_assoc, List.cons_append]

/-- An hour has no more than two digits. -/
theorem hour_lt (t : DateTime) : t.time.hour < 10 ^ (2 : Nat) :=
  Nat.lt_trans t.time.hour_lt (by decide)

/-- A minute has no more than two digits. -/
theorem minute_lt (t : DateTime) : t.time.minute < 10 ^ (2 : Nat) :=
  Nat.lt_trans t.time.minute_lt (by decide)

/-- A fraction of a second has no more than nine digits. -/
theorem fraction_lt (t : DateTime) : t.time.nanosecond % 1000000000 < 1000000000 :=
  Nat.mod_lt _ (by decide)

/-- In interchange form a year of four digits is taken, and all that follows it up to the
offset. -/
theorem instant_text_append (h : t.date.FourDigits) {separator : Char}
    (hseparator : separator ∈ ['T', 't', ' ']) {rest : List Char} (hrest : NoFraction rest) :
    instant (t.text separator ++ rest) = (offset rest).bind fun p =>
      t.time.shown?.map fun time => (DateTime.shift ⟨t.date, time⟩ (-p.1), p.2) := by
  rw [text_append, h.yearText_eq, instant,
    bind_of_eq_some (fixed_padded h.year_lt _), bind_of_eq_some (char_self _ _),
    bind_of_eq_some (fixed_padded t.date.month_lt _), bind_of_eq_some (char_self _ _),
    bind_of_eq_some (fixed_padded t.date.day_lt _), bind_of_eq_some (oneOf_mem hseparator _),
    bind_of_eq_some (fixed_padded t.hour_lt _), bind_of_eq_some (char_self _ _),
    bind_of_eq_some (fixed_padded t.minute_lt _), bind_of_eq_some (char_self _ _),
    bind_of_eq_some (fixed_padded t.time.shownSecond_lt _),
    bind_of_eq_some (fraction_fractionText t.fraction_lt hrest)]
  rcases hoffset : offset rest with _ | ⟨east, s⟩
  · rw [bind_of_eq_none hoffset, Option.bind_none]
  · rw [bind_of_eq_some hoffset, Option.bind_some, Int.toNat_of_nonneg h.1, Date.of?_self,
      bind_of_eq_some (lift_some _ _), ← TimeOfDay.shown?]
    rcases t.time.shown? with _ | time
    · rfl
    · rw [bind_of_eq_some (lift_some _ _)]
      rfl

/-- No other year is. -/
theorem instant_text_append_of_not (h : ¬ t.date.FourDigits) (separator : Char)
    (rest : List Char) : instant (t.text separator ++ rest) = none := by
  obtain ⟨ds, hyear, -⟩ := yearText_of_signed h
  have hsign : (if t.date.year < 0 then '-' else '+').isDigit = false := by split <;> rfl
  rw [text_append, hyear, List.cons_append, instant,
    bind_of_eq_none (fixed_eq_none hsign 3 _)]

/-- The text of an instant is taken in interchange form if its year has four digits. -/
theorem instant_instantText (h : t.date.FourDigits) :
    instant t.instantText = t.time.shown?.map fun time => (⟨t.date, time⟩, []) := by
  have hfraction : NoFraction "+00:00".toList := by rintro _ ⟨⟩; decide
  have hoffset : offset "+00:00".toList = some (0, []) := rfl
  rw [instantText, instant_text_append h (by simp) hfraction, hoffset, Option.bind_some]
  simp only [Int.neg_zero, shift_zero]

/-- In the plain form no text of an instant is read, for the `T` after the day. -/
theorem dateTime_instantText (t : DateTime) : dateTime t.instantText = none := by
  rw [instantText, text_append, dateTime, bind_of_eq_some (year_yearText _ (noDigit_cons rfl _)),
    bind_of_eq_some (char_self _ _), bind_of_eq_some (number_padded t.date.month_lt _),
    bind_of_eq_some (char_self _ _), bind_of_eq_some (number_padded t.date.day_lt _),
    bind_of_eq_some (modify_eq _ _), trimStart_cons rfl,
    bind_of_eq_none (number_eq_none rfl rfl 2 _)]

/-- **The text of an instant is read if and only if its year has four digits,** and then as
the instant that it shows. -/
theorem readTimestamp?_instantText (t : DateTime) :
    readTimestamp? t.instantText
      = if t.date.FourDigits then t.time.shown?.map (⟨t.date, ·⟩) else none := by
  rw [readTimestamp?, readInstant?, readDateTime?, all?, all?, dateTime_instantText, Option.or_none]
  by_cases h : t.date.FourDigits
  · rw [instant_instantText h, if_pos h]
    cases t.time.shown? <;> rfl
  · rw [instantText, instant_text_append_of_not h, if_neg h]

end DateTime
end Calendar
end EntityQuery
