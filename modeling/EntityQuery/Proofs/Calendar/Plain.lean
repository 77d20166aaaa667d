/-
# Texts of dates and plain date-times

A plain date-time is written with a blank between date and time and nothing behind the
time.  This is the pattern of the looser grammar, which takes a year with a sign too, so the
text is read as the date-time it was written from whatever its year
(`readTimestamp?_text`), and the text of a date as the date (`Date.readDate?_text`).

The interchange form is tried first and allows the blank.  It takes a text with a year of
four digits up to its end, and refuses it there because no offset follows; the text of any
other year it refuses at the sign (`readInstant?_text`).
-/

import EntityQuery.Proofs.Calendar.Instant

namespace EntityQuery
namespace Calendar

open Reader
open Text (padded)

namespace Date

variable {d : Date}

/-- The text of a date and what follows it, field by field. -/
theorem text_append (d : Date) (rest : List Char) :
    d.text ++ rest = yearText d.year ++ '-' :: (padded 2 d.month ++
      '-' :: (padded 2 d.day ++ rest)) := by
  simp only [text, List.append_assoc, List.cons_append]

/-- **The text of a date is read as the date,** with the years that readers accept. -/
theorem readDate?_text (d : Date) : readDate? d.text = if d.Supported then some d else none := by
  have htaken : date d.text = if d.Supported then some (d, []) else none := by
    rw [← List.append_nil d.text, text_append, date,
      bind_of_eq_some (year_yearText _ (noDigit_cons rfl _)), bind_of_eq_some (char_self _ _),
      bind_of_eq_some (number_padded d.month_lt _), bind_of_eq_some (char_self _ _),
      bind_of_eq_some (number_padded d.day_lt _), of?_self, bind_of_eq_some (lift_some _ _)]
    split <;> rfl
  rw [readDate?, all?, htaken]
  by_cases h : d.Supported
  · rw [if_pos h, if_pos h]
  · rw [if_neg h, if_neg h]

end Date

namespace DateTime

variable {t : DateTime}

/-- In interchange form no plain date-time is read, for want of an offset. -/
theorem readInstant?_text (t : DateTime) : readInstant? (t.text ' ') = none := by
  have htaken : instant (t.text ' ') = none := by
    rw [← List.append_nil (t.text ' ')]
    by_cases h : t.date.FourDigits
    · have hfraction : NoFraction [] := by rintro _ ⟨⟩
      have hoffset : offset [] = none := rfl
      rw [instant_text_append h (by simp) hfraction, hoffset, Option.bind_none]
    · exact instant_text_append_of_not h ' ' []
  rw [readInstant?, all?, htaken]

/-- **A plain date-time is read in the looser grammar,** with the years that readers accept,
as what a clock shows of it. -/
theorem readDateTime?_text (t : DateTime) :
    readDateTime? (t.text ' ')
      = if t.date.Supported then t.time.shown?.map (⟨t.date, ·⟩) else none := by
  have hfraction : NoFraction [] := by rintro _ ⟨⟩
  have hblank : ∀ rest, Text.trimStart (' ' :: (padded 2 t.time.hour ++ rest))
      = padded 2 t.time.hour ++ rest := fun rest =>
    (List.dropWhile_cons_of_pos rfl).trans ((numeral_padded t.hour_lt).trimStart_append rest)
  -- field by field, each with the rest of the text behind it
  have htaken : dateTime (t.text ' ') = if t.date.Supported then
      t.time.shown?.map fun time => (⟨t.date, time⟩, []) else none := by
    rw [← List.append_nil (t.text ' '), text_append, dateTime,
      bind_of_eq_some (year_yearText _ (noDigit_cons rfl _)), bind_of_eq_some (char_self _ _),
      bind_of_eq_some (number_padded t.date.month_lt _), bind_of_eq_some (char_self _ _),
      bind_of_eq_some (number_padded t.date.day_lt _), bind_of_eq_some (modify_eq _ _), hblank,
      bind_of_eq_some (number_padded t.hour_lt _), bind_of_eq_some (char_self _ _),
      bind_of_eq_some (number_padded t.minute_lt _), bind_of_eq_some (char_self _ _),
      bind_of_eq_some (number_padded t.time.shownSecond_lt _),
      bind_of_eq_some (fraction_fractionText t.fraction_lt hfraction),
      Date.of?_self, bind_of_eq_some (lift_some _ _), ← TimeOfDay.shown?]
    rcases t.time.shown? with _ | time
    · rw [bind_of_eq_none rfl, Option.map_none, ite_self]
    · rw [bind_of_eq_some (lift_some _ _), Option.map_some]
      split <;> rfl
  rw [readDateTime?, all?, htaken]
  by_cases h : t.date.Supported
  · rw [if_pos h, if_pos h]
    cases t.time.shown? <;> rfl
  · rw [if_neg h, if_neg h]

/-- **A regular date-time is read from its text as itself,** and by the looser grammar. -/
theorem readTimestamp?_text (h : t.Regular) : readTimestamp? (t.text ' ') = some t := by
  rw [readTimestamp?, readInstant?_text, Option.none_or, readDateTime?_text, if_pos h.1,
    t.time.shown?_eq_self_iff.2 h.2]
  rfl

end DateTime
end Calendar
end EntityQuery
