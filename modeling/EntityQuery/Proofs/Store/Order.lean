/-
# Times in the order of their texts

Dates, times of day, plain date-times and instants are bound as texts, and a store keeps and
compares their bytes.  These are in the order of time, if years have four digits and times of
day are such as clocks show (`TemporalType.text_lt_iff`).  So comparisons, ranges and orderings
that a store evaluates on the texts come out as on the times
(`TemporalType.sorted_as_times`).
-/

import EntityQuery.Proofs.Calendar.Order
import EntityQuery.Proofs.Store.RoundTrip

namespace EntityQuery

open Calendar Store

/-! ### Orders -/

/-- Whether a comparison holds, where one value may be before another. -/
def Comparator.Holds {α : Type} (before : α → α → Prop) : Comparator → α → α → Prop
  | .eq, a, b => a = b
  | .ne, a, b => a ≠ b
  | .gt, a, b => before b a
  | .ge, a, b => ¬ before a b
  | .lt, a, b => before a b
  | .le, a, b => ¬ before b a

/-- Whether a value lies in a range, both ends included. -/
def InRange {α : Type} (before : α → α → Prop) (low high a : α) : Prop :=
  Comparator.ge.Holds before a low ∧ Comparator.le.Holds before a high

/-- Whether values stand in the order of a direction. -/
def Direction.Sorted {α : Type} (before : α → α → Prop) (d : Direction) (as : List α) : Prop :=
  as.Pairwise (match d with
    | .ascending => Comparator.le.Holds before
    | .descending => Comparator.ge.Holds before)

/-- A store compares texts byte by byte. -/
def Store.StoredValue.Before : StoredValue → StoredValue → Prop
  | .text x, .text y => x < y
  | _, _ => False

/-- The value that a store keeps of a literal. -/
def Literal.kept (v : Literal) : Except (RunError StoreError) StoredValue := do
  let c ← v.bind.mapError .query
  let stored ← (StoredValue.ofCell c).mapError .store
  return stored.kept

/-! ### Types of times -/

/-- The types of literals that stand for times. -/
inductive TemporalType
  | date | time | dateTime | instant
deriving DecidableEq

namespace TemporalType

/-- The values of a type. -/
def Value : TemporalType → Type
  | date => Date
  | time => TimeOfDay
  | dateTime | instant => DateTime

/-- A value as a literal. -/
def literal : (k : TemporalType) → k.Value → Literal
  | date, d => .date (some d)
  | time, t => .time (some t)
  | dateTime, t => .dateTime (some t)
  | instant, t => .instant (some t)

/-- One value is before another in time. -/
def Before : (k : TemporalType) → k.Value → k.Value → Prop
  | date => Date.Before
  | time => TimeOfDay.Before
  | dateTime | instant => DateTime.Before

/-- The year has four digits, and clocks show the time of day. -/
def Plain : (k : TemporalType) → k.Value → Prop
  | date, d => d.FourDigits
  | time, t => t.Regular
  | dateTime, t | instant, t => t.date.FourDigits ∧ t.time.Regular

/-- The text of a value. -/
def text : (k : TemporalType) → k.Value → List Char
  | date, d => d.text
  | time, t => t.text
  | dateTime, t => t.text ' '
  | instant, t => t.instantText

/-- A text as a cell of a type. -/
def cell : TemporalType → String → Cell
  | date, s => .date (some s)
  | time, s => .time (some s)
  | dateTime, s | instant, s => .timestamp (some s)

variable {k : TemporalType} {a b : k.Value}

/-- The texts that are stored of dates and times are ASCII. -/
theorem ascii_text (k : TemporalType) (a : k.Value) : Text.Ascii (k.text a) := by
  cases k with
  | date => exact Date.ascii_text a
  | time => exact TimeOfDay.ascii_text a
  | dateTime => exact DateTime.ascii_text a (by decide)
  | instant => exact (DateTime.ascii_text a (by decide)).append (by simp [Text.Ascii])

/-- Of two different values, one is before the other. -/
theorem eq_iff_not_before : a = b ↔ ¬ k.Before a b ∧ ¬ k.Before b a := by
  cases k with
  | date => exact Date.eq_iff_not_before
  | time => exact TimeOfDay.eq_iff_not_before
  | dateTime => exact DateTime.eq_iff_not_before
  | instant => exact DateTime.eq_iff_not_before

/-- **Texts are in the order of time.** -/
theorem text_lt_iff (ha : k.Plain a) (hb : k.Plain b) : k.text a < k.text b ↔ k.Before a b := by
  cases k with
  | date => exact Date.text_lt_iff ha hb
  | time =>
    have h := TimeOfDay.text_append_lt_iff ha hb (s := []) (by rintro _ ⟨⟩)
    rwa [List.append_nil, List.append_nil] at h
  | dateTime =>
    have h := DateTime.text_append_lt_iff ha.1 ha.2 hb.1 hb.2 ' ' (s := []) (by rintro _ ⟨⟩)
    rwa [List.append_nil, List.append_nil] at h
  | instant =>
    exact DateTime.text_append_lt_iff ha.1 ha.2 hb.1 hb.2 'T' (by rintro _ ⟨⟩; decide)

/-! ### What a store keeps -/

/-- The value that a store keeps of a time. -/
def stored (k : TemporalType) (a : k.Value) : StoredValue :=
  .ofText (String.ofList (k.text a))

/-- A date or time is kept as its text. -/
theorem kept_literal (k : TemporalType) (a : k.Value) : (k.literal a).kept = .ok (k.stored a) := by
  cases k <;> rfl

/-- The texts that a store keeps are in the order of time. -/
theorem stored_before_iff (ha : k.Plain a) (hb : k.Plain b) :
    (k.stored a).Before (k.stored b) ↔ k.Before a b := by
  rw [← text_lt_iff ha hb, ← Text.toUTF8_lt_iff (k.ascii_text a) (k.ascii_text b)]
  exact Iff.rfl

/-- Different times are kept as different texts. -/
theorem stored_inj (ha : k.Plain a) (hb : k.Plain b) : k.stored a = k.stored b ↔ a = b := by
  refine ⟨fun h => ?_, congrArg _⟩
  have hirrefl : ∀ x : k.Value, ¬ (k.stored x).Before (k.stored x) := fun _ => List.lt_irrefl _
  rw [eq_iff_not_before, ← stored_before_iff ha hb, ← stored_before_iff hb ha, h]
  exact ⟨hirrefl b, hirrefl b⟩

/-- Comparing the texts is comparing the times. -/
theorem holds_stored_iff (ha : k.Plain a) (hb : k.Plain b) (c : Comparator) :
    c.Holds StoredValue.Before (k.stored a) (k.stored b) ↔ c.Holds k.Before a b := by
  cases c with
  | eq => exact stored_inj ha hb
  | ne => exact not_congr (stored_inj ha hb)
  | gt => exact stored_before_iff hb ha
  | ge => exact not_congr (stored_before_iff ha hb)
  | lt => exact stored_before_iff ha hb
  | le => exact not_congr (stored_before_iff hb ha)

/-- Rows are sorted by the texts if they are sorted by the times. -/
theorem sorted_stored_iff {as : List k.Value} (h : ∀ a ∈ as, k.Plain a) (d : Direction) :
    d.Sorted StoredValue.Before (as.map k.stored) ↔ d.Sorted k.Before as := by
  unfold Direction.Sorted
  rw [List.pairwise_map]
  refine List.Pairwise.iff_of_mem fun ha hb => ?_
  cases d with
  | ascending => exact holds_stored_iff (h _ ha) (h _ hb) .le
  | descending => exact holds_stored_iff (h _ ha) (h _ hb) .ge

/-- **Stored texts are sorted as times.**  A time of any type is bound as its text, and a store
keeps the text.  Of two times of one type, with years of four digits and times of day that
clocks show, one is before the other if and only if the bytes of its text are before those of
the other's, whatever digits their fractions have.  So a store that compares the texts comes to
the same comparisons, ranges and orderings as one that compares the times. -/
theorem sorted_as_times (k : TemporalType) :
    (∀ a : k.Value, (k.literal a).bind = .ok (k.cell (String.ofList (k.text a))) ∧
      (k.literal a).kept = .ok (k.stored a)) ∧
    (∀ a b : k.Value, k.Plain a → k.Plain b →
      (k.Before a b ↔ (String.ofList (k.text a)).toUTF8.toList
        < (String.ofList (k.text b)).toUTF8.toList) ∧
      ∀ c : Comparator,
        c.Holds StoredValue.Before (k.stored a) (k.stored b) ↔ c.Holds k.Before a b) ∧
    (∀ low high a : k.Value, k.Plain low → k.Plain high → k.Plain a →
      (InRange StoredValue.Before (k.stored low) (k.stored high) (k.stored a)
        ↔ InRange k.Before low high a)) ∧
    (∀ (d : Direction) (as : List k.Value), (∀ a ∈ as, k.Plain a) →
      (d.Sorted StoredValue.Before (as.map k.stored) ↔ d.Sorted k.Before as)) := by
  refine ⟨fun a => ⟨by cases k <;> rfl, k.kept_literal a⟩, fun a b ha hb => ⟨?_, ?_⟩,
    fun low high a hlow hhigh ha => ?_, fun d as h => sorted_stored_iff h d⟩
  · exact (stored_before_iff ha hb).symm
  · exact holds_stored_iff ha hb
  · exact and_congr (holds_stored_iff ha hlow .ge) (holds_stored_iff ha hhigh .le)

/-- The leap second at the end of 2016 is kept as a text behind the last nanosecond before it,
though only that one writes a fraction, and in front of the first second of 2017. -/
theorem sorted_as_times_leap :
    let last : DateTime := ⟨⟨2016, 12, 31, by decide, by decide⟩,
      ⟨23, 59, 59, 999999999, by decide, by decide, by decide, by decide⟩⟩
    let leap : DateTime := ⟨⟨2016, 12, 31, by decide, by decide⟩,
      ⟨23, 59, 59, 1000000000, by decide, by decide, by decide, by decide⟩⟩
    let next : DateTime := ⟨⟨2017, 1, 1, by decide, by decide⟩,
      ⟨0, 0, 0, 0, by decide, by decide, by decide, by decide⟩⟩
    (∀ t ∈ [last, leap, next], instant.Plain t) ∧
      String.ofList (instant.text last) = "2016-12-31T23:59:59.999999999+00:00" ∧
      String.ofList (instant.text leap) = "2016-12-31T23:59:60+00:00" ∧
      "2016-12-31T23:59:59.999999999+00:00".toUTF8.toList
        < "2016-12-31T23:59:60+00:00".toUTF8.toList ∧
      Comparator.gt.Holds StoredValue.Before (instant.stored leap) (instant.stored last) ∧
      InRange StoredValue.Before (instant.stored last) (instant.stored next)
        (instant.stored leap) ∧
      Direction.ascending.Sorted StoredValue.Before ([last, leap, next].map instant.stored) := by
  intro last leap next
  have hplain : ∀ t ∈ [last, leap, next], instant.Plain t :=
    List.forall_mem_cons.2 ⟨⟨by decide, by decide⟩,
      List.forall_mem_cons.2 ⟨⟨by decide, by decide⟩,
        List.forall_mem_singleton.2 ⟨by decide, by decide⟩⟩⟩
  have hlast : instant.Plain last := hplain last (by simp)
  have hleap : instant.Plain leap := hplain leap (by simp)
  have hnext : instant.Plain next := hplain next (by simp)
  have hlastText : String.ofList (instant.text last) = "2016-12-31T23:59:59.999999999+00:00" := by
    decide
  have hleapText : String.ofList (instant.text leap) = "2016-12-31T23:59:60+00:00" := by decide
  have hbefore : DateTime.Before last leap := by decide
  have hrange : ¬ DateTime.Before leap last ∧ ¬ DateTime.Before next leap := by decide
  have hsorted : [last, leap, next].Pairwise fun a b => ¬ DateTime.Before b a := by decide
  obtain ⟨-, hpairs, hranges, horders⟩ := sorted_as_times instant
  obtain ⟨hbytes, hcompare⟩ := hpairs last leap hlast hleap
  rw [hlastText, hleapText] at hbytes
  exact ⟨hplain, hlastText, hleapText, hbytes.1 hbefore,
    ((hpairs leap last hleap hlast).2 .gt).2 hbefore,
    (hranges last next leap hlast hnext hleap).2 hrange, (horders .ascending _ hplain).2 hsorted⟩

end TemporalType
end EntityQuery
