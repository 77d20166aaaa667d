/-
# Dates and plain date-times there and back

A date is bound as its text, and so is a plain date-time; a store gives either text back as
it is.  A column of dates reads the date, and a column of instants the date-time in universal
time, from the cell that was bound as from the one that the store gives back
(`Literal.plain_comes_back`).

Unlike that of an instant, the text of a plain date-time has the form that a column of
instants tries second, and this form has room for a sign: no year is lost.
-/

import EntityQuery.Proofs.Calendar.Plain
import EntityQuery.Proofs.Store.Instant

namespace EntityQuery
namespace Literal

open Calendar

variable {c : Cell} {s : String}

/-- A cell holds a text, as a text or as that of a date. -/
def HoldsDateText (c : Cell) (s : String) : Prop := c = .date (some s) ∨ c = .text (some s)

/-- A cell that holds the text of a date is not null. -/
theorem HoldsDateText.isNull (h : HoldsDateText c s) : c.isNull = false := by
  rcases h with rfl | rfl <;> rfl

/-- A column of dates reads the text of either cell. -/
theorem HoldsDateText.read (h : HoldsDateText c s) {d : Date} (hd : readDate? s.toList = some d) :
    ColumnType.date.read c = .ok (.date d) := by
  have hread : c.toDate = .ok d := by
    rcases h with rfl | rfl <;> rw [Cell.toDate, hd]
  rw [ColumnType.read, hread]
  rfl

/-- A store gives a date back as the text it was bound as. -/
theorem giveBack_date (d : Date) :
    (date (some d)).giveBack = .ok (.text (some (String.ofList d.text))) :=
  giveBack_eq_ok rfl rfl (Store.cell_ofText _)

/-- A store gives a plain date-time back as the text it was bound as. -/
theorem giveBack_dateTime (t : DateTime) :
    (dateTime (some t)).giveBack = .ok (.text (some (String.ofList (t.text ' ')))) :=
  giveBack_eq_ok rfl rfl (Store.cell_ofText _)

/-- **Dates and plain date-times come back.**  A date is bound as its text, and the store
gives this text back; from either cell a column of dates reads the date, whatever its year.
The same goes for a plain date-time that clocks show, leap seconds and all nanoseconds
included: a column of instants reads it in universal time, by the pattern of plain date-times,
and the interchange form that is tried first takes the text for nothing else. -/
theorem plain_comes_back :
    (∀ d : Date, d.Supported →
      let text := String.ofList d.text
      (date (some d)).bind = .ok (.date (some text)) ∧
        (date (some d)).giveBack = .ok (.text (some text)) ∧
        ∀ (r : Row) (name : String) (isOptional : Bool) (c : Cell), r.get? name = some c →
          HoldsDateText c text → r.read name .date isOptional = .ok (.date d)) ∧
    (∀ t : DateTime, t.Regular →
      let text := String.ofList (t.text ' ')
      (dateTime (some t)).bind = .ok (.timestamp (some text)) ∧
        (dateTime (some t)).giveBack = .ok (.text (some text)) ∧
        readInstant? text.toList = none ∧ readDateTime? text.toList = some t ∧
        ∀ (r : Row) (name : String) (isOptional : Bool) (c : Cell), r.get? name = some c →
          HoldsText c text → r.read name .instant isOptional = .ok (.instant t)) := by
  refine ⟨fun d hd => ⟨rfl, giveBack_date d, fun r name isOptional c hr hc => ?_⟩,
    fun t ht => ⟨rfl, giveBack_dateTime t, ?_, ?_, fun r name isOptional c hr hc => ?_⟩⟩
  · have hread : readDate? (String.ofList d.text).toList = some d := by
      rw [String.toList_ofList, d.readDate?_text, if_pos hd]
    rw [Row.read_of_not_isNull hr hc.isNull, hc.read hread]
  · rw [String.toList_ofList, t.readInstant?_text]
  · rw [String.toList_ofList, t.readDateTime?_text, if_pos ht.1,
      t.time.shown?_eq_self_iff.2 ht.2]
    rfl
  · rw [Row.read_of_not_isNull hr hc.isNull, hc.read, String.toList_ofList,
      DateTime.readTimestamp?_text ht]

/-- The first day that there is comes back from the store, and so does the last nanosecond of
a leap second at the end of the last day. -/
theorem plain_comes_back_bounds :
    let first : Date := ⟨-262143, 1, 1, by decide, by decide⟩
    let last : DateTime := ⟨⟨262142, 12, 31, by decide, by decide⟩,
      ⟨23, 59, 59, 1999999999, by decide, by decide, by decide, by decide⟩⟩
    let row (s : String) : Row := ⟨"0", [⟨"seen", .text (some s)⟩]⟩
    first.Supported ∧ last.Regular ∧
      (date (some first)).giveBack = .ok (.text (some "-262143-01-01")) ∧
      (row "-262143-01-01").read "seen" .date false = .ok (.date first) ∧
      (dateTime (some last)).giveBack = .ok (.text (some "+262142-12-31 23:59:60.999999999")) ∧
      (row "+262142-12-31 23:59:60.999999999").read "seen" .instant true
        = .ok (.instant last) := by
  intro first last row
  have hfirst : String.ofList first.text = "-262143-01-01" := by decide
  have hlast : String.ofList (last.text ' ') = "+262142-12-31 23:59:60.999999999" := by decide
  obtain ⟨-, hback, hread⟩ := plain_comes_back.1 first (by decide)
  obtain ⟨-, hback', -, -, hread'⟩ := plain_comes_back.2 last (by decide)
  rw [hfirst] at hback hread
  rw [hlast] at hback' hread'
  exact ⟨by decide, by decide, hback, hread (row _) "seen" false _ rfl (.inr rfl), hback',
    hread' (row _) "seen" true _ rfl (.inr rfl)⟩

end Literal
end EntityQuery
