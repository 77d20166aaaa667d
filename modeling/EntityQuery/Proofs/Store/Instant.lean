/-
# Instants there and back

An instant is bound as its text, and a store gives the text back as it is.  So whether the
cell is fetched as it was bound or from the store, the same text is read, and the instant
comes back if its year has four digits (`Literal.read_instant_iff`).

The text of any other year has a sign in front, which neither of the two forms that are read
has room for: such an instant can be bound and stored, and not fetched again.
-/

import EntityQuery.Proofs.Calendar.Instant
import EntityQuery.Proofs.Store.RoundTrip

namespace EntityQuery
namespace Literal

open Calendar

variable {c : Cell} {s : String} {t : DateTime}

/-- A cell holds a text, as a text or as that of an instant. -/
def HoldsText (c : Cell) (s : String) : Prop := c = .timestamp (some s) ∨ c = .text (some s)

/-- A cell that holds a text is not null. -/
theorem HoldsText.isNull (h : HoldsText c s) : c.isNull = false := by
  rcases h with rfl | rfl <;> rfl

/-- A column of instants reads the text of either cell. -/
theorem HoldsText.read (h : HoldsText c s) :
    ColumnType.instant.read c = match readTimestamp? s.toList with
      | some t => .ok (.instant t)
      | none => .error (.invalidTimestamp s) := by
  have hread : ColumnType.instant.read c = (match readTimestamp? s.toList with
      | some t => Except.ok t
      | none => .error (ReadError.invalidTimestamp s)).map ColumnValue.instant := by
    rcases h with rfl | rfl <;> rfl
  rw [hread]
  cases readTimestamp? s.toList <;> rfl

/-- A store gives an instant back as the text it was bound as. -/
theorem giveBack_instant (t : DateTime) :
    (instant (some t)).giveBack = .ok (.text (some (String.ofList t.instantText))) :=
  giveBack_eq_ok rfl rfl (Store.cell_ofText _)

/-- The text of an instant is read as the instant if and only if its year has four digits
and the time of day is regular. -/
theorem HoldsText.read_eq_ok_iff (h : HoldsText c (String.ofList t.instantText)) :
    ColumnType.instant.read c = .ok (.instant t) ↔ t.date.FourDigits ∧ t.time.Regular := by
  rw [h.read, String.toList_ofList, t.readTimestamp?_instantText, ← t.time.shown?_eq_self_iff]
  by_cases hyear : t.date.FourDigits
  · rw [if_pos hyear]
    rcases t.time.shown? with _ | time
    · simp
    · obtain ⟨date, time'⟩ := t
      simp [hyear]
  · rw [if_neg hyear]
    simp [hyear]

/-- The text of any other year is refused. -/
theorem HoldsText.read_eq_error (h : HoldsText c (String.ofList t.instantText))
    (hyear : ¬ t.date.FourDigits) :
    ColumnType.instant.read c = .error (.invalidTimestamp (String.ofList t.instantText)) := by
  rw [h.read, String.toList_ofList, t.readTimestamp?_instantText, if_neg hyear]

/-- **Which instants come back.**  An instant is bound as its text, and the store gives this
text back.  From either cell a column of instants reads the instant itself if and only if its
year lies between 0 and 9999, for every time of day that clocks show, leap seconds and all
nanoseconds included.  An instant of any other year is refused, for its text. -/
theorem read_instant_iff (t : DateTime) :
    let text := String.ofList t.instantText
    (instant (some t)).bind = .ok (.timestamp (some text)) ∧
      (instant (some t)).giveBack = .ok (.text (some text)) ∧
      ∀ (r : Row) (name : String) (isOptional : Bool) (c : Cell), r.get? name = some c →
        HoldsText c text →
          (r.read name .instant isOptional = .ok (.instant t) ↔
            t.date.FourDigits ∧ t.time.Regular) ∧
          (¬ t.date.FourDigits →
            r.read name .instant isOptional = .error (.invalidTimestamp text)) := by
  refine ⟨rfl, giveBack_instant t, fun r name isOptional c hr hc => ?_⟩
  rw [Row.read_of_not_isNull hr hc.isNull]
  exact ⟨hc.read_eq_ok_iff, hc.read_eq_error⟩

/-- The leap second at the end of 2016, with a nanosecond, comes back from the store as it
is, and the first instant of the year 10000 is refused. -/
theorem read_instant_iff_leap :
    let leap : DateTime := ⟨⟨2016, 12, 31, by decide, by decide⟩,
      ⟨23, 59, 59, 1000000001, by decide, by decide, by decide, by decide⟩⟩
    let late : DateTime := ⟨⟨10000, 1, 1, by decide, by decide⟩,
      ⟨0, 0, 0, 0, by decide, by decide, by decide, by decide⟩⟩
    let row (s : String) : Row := ⟨"0", [⟨"seen", .text (some s)⟩]⟩
    (instant (some leap)).giveBack = .ok (.text (some "2016-12-31T23:59:60.000000001+00:00")) ∧
      (row "2016-12-31T23:59:60.000000001+00:00").read "seen" .instant true
        = .ok (.instant leap) ∧
      (instant (some late)).giveBack = .ok (.text (some "+10000-01-01T00:00:00+00:00")) ∧
      (row "+10000-01-01T00:00:00+00:00").read "seen" .instant false
        = .error (.invalidTimestamp "+10000-01-01T00:00:00+00:00") := by
  intro leap late row
  have hleap : String.ofList leap.instantText = "2016-12-31T23:59:60.000000001+00:00" := by decide
  have hlate : String.ofList late.instantText = "+10000-01-01T00:00:00+00:00" := by decide
  obtain ⟨-, hback, hread⟩ := read_instant_iff leap
  obtain ⟨-, hback', hread'⟩ := read_instant_iff late
  rw [hleap] at hback hread
  rw [hlate] at hback' hread'
  exact ⟨hback, (hread (row _) "seen" true _ rfl (.inr rfl)).1.2 (by decide), hback',
    (hread' (row _) "seen" false _ rfl (.inr rfl)).2 (by decide)⟩

/-- The first instant of the year 10000 is regular, can be bound and stored, and is read
neither from the cell it is bound as nor from the one that the store gives back. -/
theorem not_read_instant_late :
    let late : DateTime := ⟨⟨10000, 1, 1, by decide, by decide⟩,
      ⟨0, 0, 0, 0, by decide, by decide, by decide, by decide⟩⟩
    late.Regular ∧ ∃ bound stored, (instant (some late)).bind = .ok bound ∧
      (instant (some late)).giveBack = .ok stored ∧
      ∀ v, (⟨"0", [⟨"seen", bound⟩]⟩ : Row).read "seen" .instant false ≠ .ok v ∧
        (⟨"0", [⟨"seen", stored⟩]⟩ : Row).read "seen" .instant false ≠ .ok v := by
  intro late
  have hyear : ¬ late.date.FourDigits := by decide
  have hbound : HoldsText (.timestamp (some (String.ofList late.instantText))) _ := .inl rfl
  have hstored : HoldsText (.text (some (String.ofList late.instantText))) _ := .inr rfl
  refine ⟨by decide, _, _, rfl, giveBack_instant late, fun v => ⟨fun h => ?_, fun h => ?_⟩⟩
  · cases (hbound.read_eq_error hyear).symm.trans h
  · cases (hstored.read_eq_error hyear).symm.trans h

end Literal
end EntityQuery
