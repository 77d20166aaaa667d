/-
# What is bound comes back

A store forgets of a cell how wide its integer was, whether that was a truth value, and of
which type its null was; the type of the column that it is read as brings this back.  A
value goes from the program to the store and back in four steps (`Literal.giveBack`): it is
bound as a cell, stored, kept and read back as a cell.  Values of the types that a store
has room for (`PlainType`) are read from that cell as they were, whatever stands beside
them in the row; only an unsigned integer beyond the signed range is refused, and that when
it is bound.
-/

import EntityQuery.Proofs.Entity.Reading
import EntityQuery.Proofs.Text.Bytes
import EntityQuery.Runner
import EntityQuery.Store.Value

namespace EntityQuery

open Binary Store

/-- The bytes of a text are read as that text. -/
theorem Json.textOfBytes?_toUTF8 (s : String) : Json.textOfBytes? s.toUTF8.toList = some s := by
  rw [Json.textOfBytes?, Text.toByteArray_toList]
  exact dif_pos s.isValidUTF8

/-! ### What is stored -/

namespace Store

/-- **Nulls, and only nulls, are bound as null.** -/
theorem ofCell_eq_null_iff {c : Cell} {v : StoredValue} (h : StoredValue.ofCell c = .ok v) :
    v = .null ↔ c.isNull = true := by
  cases c with
  | uint64 n =>
    cases n with
    | none => cases h; simp [Cell.isNull]
    | some n =>
      rw [StoredValue.ofCell] at h
      split at h
      · cases h; simp [Cell.isNull]
      · cases h
  | _ n => cases n <;> cases h <;> simp [StoredValue.orNull, StoredValue.ofText, Cell.isNull]

/-- **Only an unsigned integer beyond the signed range cannot be stored.** -/
theorem ofCell_eq_error_iff {c : Cell} {e : StoreError} :
    StoredValue.ofCell c = .error e ↔
      e = .oversizedInteger ∧
        ∃ n, c = .uint64 (some n) ∧ Int64.maxValue.toInt < n.toNat := by
  cases c with
  | uint64 n =>
    cases n with
    | none => simp [StoredValue.ofCell]
    | some n =>
      have hmax : Int64.maxValue.toInt < n.toNat ↔ ¬ n.toNat < 9223372036854775808 := by
        rw [show Int64.maxValue.toInt = 9223372036854775807 from rfl]
        omega
      rw [StoredValue.ofCell]
      split <;> simp_all [eq_comm]
  | _ n => simp [StoredValue.ofCell]

/-- **What is kept is null if it was a null or a double that is no number.** -/
theorem kept_eq_null_iff {v : StoredValue} :
    v.kept = .null ↔ v = .null ∨ ∃ x, v = .real x ∧ x.isNaN = true := by
  cases v with
  | real x => cases h : x.isNaN <;> simp [StoredValue.kept, h]
  | _ => simp [StoredValue.kept]

/-- A stored value stays as it is unless it is a double that is no number. -/
theorem kept_eq_self {v : StoredValue} (h : ∀ x, v = .real x → x.isNaN = false) : v.kept = v := by
  cases v with
  | real x => simp [StoredValue.kept, h x rfl]
  | _ => rfl

/-- A text is kept, and is a text again. -/
theorem cell_ofText (s : String) : (StoredValue.ofText s).kept.cell = .ok (.text (some s)) := by
  simp only [StoredValue.ofText, StoredValue.kept, StoredValue.cell]
  rw [Json.textOfBytes?_toUTF8]

end Store

/-! ### There and back -/

/-- What becomes of a literal that is bound, stored and read back. -/
def Literal.giveBack (v : Literal) : Except (RunError StoreError) Cell := do
  let c ← v.bind.mapError .query
  let stored ← (StoredValue.ofCell c).mapError .store
  stored.kept.cell.mapError .store

/-- A literal comes back as a cell that a column type reads as a given value. -/
def Literal.ComesBack (v : Literal) (t : ColumnType) (w : ColumnValue) : Prop :=
  ∃ c, v.giveBack = .ok c ∧ c.isNull = false ∧ t.read c = .ok w

namespace Literal

/-- A literal is given back if each of the steps succeeds. -/
theorem giveBack_eq_ok {v : Literal} {c d : Cell} {s : StoredValue} (hbind : v.bind = .ok c)
    (hstored : StoredValue.ofCell c = .ok s) (hcell : s.kept.cell = .ok d) :
    v.giveBack = .ok d := by
  rw [giveBack, hbind]
  simp only [Except.mapError, Bind.bind, Except.bind, hstored, hcell]

/-- A cell that cannot be stored is refused with the reason. -/
theorem giveBack_eq_error {v : Literal} {c : Cell} {e : StoreError} (hbind : v.bind = .ok c)
    (hstored : StoredValue.ofCell c = .error e) : v.giveBack = .error (.store e) := by
  rw [giveBack, hbind]
  simp only [Except.mapError, Bind.bind, Except.bind, hstored]

/-- What is stored as an integer comes back as the value that stands for the integer. -/
theorem comesBack_integer {v : Literal} {c : Cell} {n : Int64} {t : IntegerType} {w : ColumnValue}
    (hbind : v.bind = .ok c) (hstored : StoredValue.ofCell c = .ok (.integer n))
    (hw : w.integer? = some (t, n.toInt)) : v.ComesBack t.columnType w :=
  ⟨_, giveBack_eq_ok hbind hstored rfl, rfl, IntegerType.read_of_integer? hw⟩

/-- Truth values come back: they are stored as the integers 0 and 1. -/
theorem comesBack_bool (b : Bool) : (bool (some b)).ComesBack .bool (.bool b) :=
  ⟨_, giveBack_eq_ok rfl rfl rfl, rfl, by cases b <;> rfl⟩

/-- Signed integers of 32 bits come back. -/
theorem comesBack_int32 (n : Int32) : (int32 (some n)).ComesBack .int32 (.int32 n) :=
  comesBack_integer (t := .int32) rfl rfl (by rw [Int32.toInt_toInt64]; rfl)

/-- Signed integers of 64 bits come back. -/
theorem comesBack_int64 (n : Int64) : (int64 (some n)).ComesBack .int64 (.int64 n) :=
  comesBack_integer (t := .int64) rfl rfl rfl

/-- Unsigned integers of 32 bits come back. -/
theorem comesBack_uint32 (n : UInt32) : (uint32 (some n)).ComesBack .uint32 (.uint32 n) := by
  have hlt := n.toNat_lt
  exact comesBack_integer (t := .uint32) rfl rfl (by rw [Int64.toInt_ofNat_of_lt (by omega)]; rfl)

/-- Unsigned integers of 64 bits come back if they are in the signed range. -/
theorem comesBack_uint64 {n : UInt64} (h : n.toNat ≤ Int64.maxValue.toInt) :
    (uint64 (some n)).ComesBack .uint64 (.uint64 n) := by
  rw [show Int64.maxValue.toInt = 9223372036854775807 from rfl] at h
  have hlt : n.toNat < 9223372036854775808 := by omega
  exact comesBack_integer (t := .uint64) rfl (if_pos hlt)
    (by rw [Int64.toInt_ofNat_of_lt hlt]; rfl)

/-- Doubles come back, but for those that are no number. -/
theorem comesBack_double {x : Double} (h : x.isNaN = false) :
    (double (some x)).ComesBack .double (.double x) := by
  have hkept : (StoredValue.real x).kept = .real x := kept_eq_self (by rintro _ ⟨⟩; exact h)
  exact ⟨_, giveBack_eq_ok rfl rfl (by rw [StoredValue.orNull, hkept]; rfl), rfl, rfl⟩

/-- Texts come back. -/
theorem comesBack_text (s : String) : (text (some s)).ComesBack .text (.text s) :=
  ⟨_, giveBack_eq_ok rfl rfl (cell_ofText s), rfl, rfl⟩

/-- Bytes come back. -/
theorem comesBack_bytes (bs : List UInt8) : (bytes (some bs)).ComesBack .bytes (.bytes bs) :=
  ⟨_, giveBack_eq_ok rfl rfl rfl, rfl, rfl⟩

end Literal

/-- The types whose values a store has room for. -/
inductive PlainType
  | bool | int32 | int64 | uint32 | uint64 | double | text | bytes

namespace PlainType

/-- The values of a type; what is no number is not a value. -/
def Value : PlainType → Type
  | bool => Bool
  | int32 => Int32
  | int64 => Int64
  | uint32 => UInt32
  | uint64 => UInt64
  | double => { x : Double // x.isNaN = false }
  | text => String
  | bytes => List UInt8

/-- A type as a column type. -/
def columnType : PlainType → ColumnType
  | bool => .bool
  | int32 => .int32
  | int64 => .int64
  | uint32 => .uint32
  | uint64 => .uint64
  | double => .double
  | text => .text
  | bytes => .bytes

/-- A value of a type, or its null, as a literal. -/
def literal : (t : PlainType) → Option t.Value → Literal
  | bool, v => .bool v
  | int32, v => .int32 v
  | int64, v => .int64 v
  | uint32, v => .uint32 v
  | uint64, v => .uint64 v
  | double, v => .double (v.map Subtype.val)
  | text, v => .text v
  | bytes, v => .bytes v

/-- A value of a type as the column of a record has it. -/
def columnValue : (t : PlainType) → t.Value → ColumnValue
  | bool, v => .bool v
  | int32, v => .int32 v
  | int64, v => .int64 v
  | uint32, v => .uint32 v
  | uint64, v => .uint64 v
  | double, v => .double v.val
  | text, v => .text v
  | bytes, v => .bytes v

/-- The null of every type comes back as the same null. -/
theorem giveBack_none (t : PlainType) : (t.literal none).giveBack = .ok (.text none) := by
  cases t <;> rfl

/-- **Every value comes back as itself**, unless it is an unsigned integer beyond the signed
range. -/
theorem comesBack {t : PlainType} {v : t.Value}
    (h : ∀ n : UInt64, t.literal (some v) = .uint64 (some n) → n.toNat ≤ Int64.maxValue.toInt) :
    (t.literal (some v)).ComesBack t.columnType (t.columnValue v) := by
  cases t with
  | bool => exact Literal.comesBack_bool v
  | int32 => exact Literal.comesBack_int32 v
  | int64 => exact Literal.comesBack_int64 v
  | uint32 => exact Literal.comesBack_uint32 v
  | uint64 => exact Literal.comesBack_uint64 (h v rfl)
  | double => exact Literal.comesBack_double v.property
  | text => exact Literal.comesBack_text v
  | bytes => exact Literal.comesBack_bytes v

end PlainType

/-! ### Columns of a row -/

/-- A column of a row with its value, `none` being the null of an optional column. -/
structure Slot where
  name : String
  type : PlainType
  isOptional : Bool
  value : Option type.Value
  present : isOptional = false → value ≠ none

namespace Slot

/-- The value of a slot as a literal. -/
def literal (s : Slot) : Literal := s.type.literal s.value

/-- The value of a slot as the column of a record has it. -/
def columnValue (s : Slot) : ColumnValue :=
  match s.value with
  | none => .none
  | some v => s.type.columnValue v

/-- The value is an unsigned integer beyond the signed range. -/
def Oversized (s : Slot) : Prop :=
  ∃ n : UInt64, s.literal = .uint64 (some n) ∧ Int64.maxValue.toInt < n.toNat

/-- The field that a slot comes back as. -/
def giveBack (s : Slot) : Except (RunError StoreError) Field :=
  s.literal.giveBack.map (⟨s.name, ·⟩)

/-- Wherever the cell stands under the name of the slot, the slot's column has the slot's
value. -/
def ReadsFrom (s : Slot) (c : Cell) : Prop :=
  ∀ r : Row, r.get? s.name = some c →
    r.read s.name s.type.columnType s.isOptional = .ok s.columnValue

variable {s : Slot} {slots : List Slot}

/-- A value that is too large is refused. -/
theorem giveBack_of_oversized (h : s.Oversized) :
    s.giveBack = .error (.store .oversizedInteger) := by
  obtain ⟨n, hn, hlt⟩ := h
  have hbind : s.literal.bind = .ok (.uint64 (some n)) := by rw [hn]; rfl
  rw [giveBack, Literal.giveBack_eq_error hbind (ofCell_eq_error_iff.2 ⟨rfl, n, rfl, hlt⟩)]
  rfl

/-- Every other value comes back under the name of its column, and the column reads it. -/
theorem giveBack_of_not_oversized (h : ¬ s.Oversized) :
    ∃ f, s.giveBack = .ok f ∧ f.name = s.name ∧ s.ReadsFrom f.cell := by
  obtain ⟨name, type, isOptional, value, present⟩ := s
  cases value with
  | none =>
    have hoptional : isOptional = true := by
      cases isOptional with
      | true => rfl
      | false => exact absurd rfl (present rfl)
    refine ⟨⟨name, .text none⟩, ?_, rfl, fun r hr => ?_⟩
    · rw [giveBack, literal, type.giveBack_none]
      rfl
    · simp only [hoptional]
      exact Row.read_of_isNull hr rfl
  | some v =>
    obtain ⟨c, hc, hnull, hread⟩ := PlainType.comesBack (t := type) (v := v)
      fun n hn => Int.not_lt.1 fun hlt => h ⟨n, hn, hlt⟩
    refine ⟨⟨name, c⟩, ?_, rfl, fun r hr => ?_⟩
    · rw [giveBack, literal, hc]
      rfl
    · rw [Row.read_of_not_isNull hr hnull, hread]
      rfl

/-- Slots with one that is too large are refused. -/
theorem mapM_giveBack_of_oversized (h : ∃ s ∈ slots, s.Oversized) :
    slots.mapM giveBack = .error (.store .oversizedInteger) := by
  induction slots with
  | nil => simp at h
  | cons s slots ih =>
    rw [List.mapM_cons]
    by_cases hs : s.Oversized
    · rw [giveBack_of_oversized hs]
      rfl
    · obtain ⟨f, hf, -⟩ := giveBack_of_not_oversized hs
      rw [hf, ih (by simpa [hs] using h)]
      rfl

/-- All other slots come back, each under its name. -/
theorem mapM_giveBack_of_not_oversized (h : ∀ s ∈ slots, ¬ s.Oversized) :
    ∃ fields, slots.mapM giveBack = .ok fields ∧ fields.map (·.name) = slots.map (·.name) ∧
      ∀ s ∈ slots, ∃ f ∈ fields, f.name = s.name ∧ s.ReadsFrom f.cell := by
  induction slots with
  | nil => exact ⟨[], rfl, rfl, by simp⟩
  | cons s slots ih =>
    obtain ⟨f, hf, hname, hread⟩ := giveBack_of_not_oversized (h s List.mem_cons_self)
    obtain ⟨fields, hfields, hnames, hreads⟩ := ih fun t ht => h t (List.mem_cons_of_mem s ht)
    refine ⟨f :: fields, ?_, by simp [hname, hnames], fun t ht => ?_⟩
    · rw [List.mapM_cons, hf, hfields]
      rfl
    · rcases List.mem_cons.1 ht with rfl | ht
      · exact ⟨f, List.mem_cons_self, hname, hread⟩
      · obtain ⟨k, hk, hkread⟩ := hreads t ht
        exact ⟨k, List.mem_cons_of_mem f hk, hkread⟩

/-- **What is bound comes back.**  Slots of distinct names are refused when one of them is
an unsigned integer beyond the signed range; otherwise they come back, and every column has
its value again wherever their cells stand in a row, beside whatever has another name.
Nothing else is refused by the store; a cell is bound as null if and only if it is null, and
kept as null if it is that or a double that is no number; a null is read as the empty value of
every optional column; and an integer of the store is read as an integer type if it fits, as
the same number, and refused if it does not. -/
theorem bound_comes_back :
    (∀ slots : List Slot, (slots.map (·.name)).Nodup →
      ((∃ s ∈ slots, s.Oversized) → slots.mapM giveBack = .error (.store .oversizedInteger)) ∧
      ((∀ s ∈ slots, ¬ s.Oversized) → ∃ fields, slots.mapM giveBack = .ok fields ∧
        ∀ (r : Row) (others : List Field), r.fields.Perm (fields ++ others) →
          (∀ g ∈ others, ∀ s ∈ slots, g.name ≠ s.name) →
          ∀ s ∈ slots, r.read s.name s.type.columnType s.isOptional = .ok s.columnValue)) ∧
    (∀ c e, StoredValue.ofCell c = .error e ↔ e = .oversizedInteger ∧
      ∃ n, c = .uint64 (some n) ∧ Int64.maxValue.toInt < n.toNat) ∧
    (∀ c v, StoredValue.ofCell c = .ok v → (v = .null ↔ c.isNull = true) ∧
      (v.kept = .null ↔ c.isNull = true ∨ ∃ x, v = .real x ∧ x.isNaN = true)) ∧
    (∃ c, StoredValue.null.cell = .ok c ∧ ∀ (r : Row) (name : String) (t : ColumnType),
      r.get? name = some c → r.read name t true = .ok .none) ∧
    (∀ n : Int64, ∃ c, (StoredValue.integer n).cell = .ok c ∧
      ∀ (r : Row) (name : String) (t : IntegerType) (isOptional : Bool), r.get? name = some c →
        (t.Fits n.toInt → ∃ v, r.read name t.columnType isOptional = .ok v ∧
          v.integer? = some (t, n.toInt)) ∧
        (¬ t.Fits n.toInt →
          r.read name t.columnType isOptional = .error (.outOfRange n.toInt t.columnType))) := by
  refine ⟨fun slots hnodup => ⟨mapM_giveBack_of_oversized, fun hsizes => ?_⟩,
    fun _ _ => ofCell_eq_error_iff, fun _ _ hc => ⟨ofCell_eq_null_iff hc,
      kept_eq_null_iff.trans (or_congr_left (ofCell_eq_null_iff hc))⟩,
    ⟨_, rfl, fun _ _ _ hr => Row.read_of_isNull hr rfl⟩,
    fun n => ⟨_, rfl, fun r name t isOptional hr => ?_⟩⟩
  · obtain ⟨fields, hfields, hnames, hreads⟩ := mapM_giveBack_of_not_oversized hsizes
    refine ⟨fields, hfields, fun r others hrow hothers s hs => ?_⟩
    obtain ⟨f, hf, hname, hread⟩ := hreads s hs
    refine hread r (hname ▸ Row.get?_of_perm hrow (hnames ▸ hnodup) hf fun g hg => ?_)
    rw [hname]
    exact hothers g hg s hs
  · rw [Row.read_of_not_isNull hr rfl]
    exact ⟨IntegerType.read_eq_ok, IntegerType.read_eq_error⟩

/-- The hypotheses of `bound_comes_back` are satisfiable: the number, the age and the missing
name of a dog come back from a row that has them in another order beside a postcode, the
number 2⁶³ is refused, and 3000000000 is read as an unsigned integer of 32 bits but not as a
signed one. -/
theorem bound_comes_back_dogs :
    let id : Slot := ⟨"id", .uint64, false, some (7 : UInt64), by simp⟩
    let age : Slot := ⟨"age", .int32, true, some (-3 : Int32), by simp⟩
    let name : Slot := ⟨"name", .text, true, none, by simp⟩
    let large : Slot := ⟨"id", .uint64, false, some (9223372036854775808 : UInt64), by simp⟩
    let row : Row := ⟨"0", [⟨"zip", .text (some "8000")⟩, ⟨"name", .text none⟩,
      ⟨"age", .int64 (some (-3))⟩, ⟨"id", .int64 (some 7)⟩]⟩
    let wide : Row := ⟨"1", [⟨"id", .int64 (some 3000000000)⟩]⟩
    [id, age, name].mapM giveBack = .ok [⟨"id", .int64 (some 7)⟩, ⟨"age", .int64 (some (-3))⟩,
        ⟨"name", .text none⟩] ∧
      row.read "id" .uint64 false = .ok (.uint64 7) ∧
      row.read "age" .int32 true = .ok (.int32 (-3)) ∧
      row.read "name" .text true = .ok .none ∧
      [age, large].mapM giveBack = .error (.store .oversizedInteger) ∧
      wide.read "id" .int32 false = .error (.outOfRange 3000000000 .int32) ∧
      ∃ v, wide.read "id" .uint32 false = .ok v ∧ v.integer? = some (.uint32, 3000000000) := by
  intro id age name large row wide
  have hsizes : ∀ s ∈ [id, age, name], ¬ s.Oversized := by
    rintro s hs ⟨n, hn, hlt⟩
    simp only [List.mem_cons, List.not_mem_nil, or_false] at hs
    rcases hs with rfl | rfl | rfl <;> cases hn
    exact absurd hlt (by decide)
  obtain ⟨fields, hfields, hread⟩ := (bound_comes_back.1 [id, age, name] (by decide)).2 hsizes
  obtain rfl := Except.ok.inj (hfields.symm.trans rfl)
  have hrow := hread row [⟨"zip", .text (some "8000")⟩] (by decide) (by simp [id, age, name])
  obtain ⟨c, hc, hint⟩ := bound_comes_back.2.2.2.2 3000000000
  cases hc
  exact ⟨hfields, hrow id (by simp), hrow age (by simp), hrow name (by simp),
    (bound_comes_back.1 [age, large] (by decide)).1 ⟨large, by simp, _, rfl, by decide⟩,
    (hint wide "id" .int32 false rfl).2 (by decide),
    (hint wide "id" .uint32 false rfl).1 (by decide)⟩

end Slot
end EntityQuery
