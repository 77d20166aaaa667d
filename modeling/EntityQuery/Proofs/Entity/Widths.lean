/-
# Which widths of integers are read

A cell holds an integer in one of four types (`Cell.integer?`), and a column of an integer
type is read from some of them (`IntegerType.sources`).  From a cell of these, a number that
fits is read as itself and any other is out of range.  From a cell of the others nothing is
read, not even a number that fits: they are refused for their type.

So the rule that any integer is read where it fits (`IntegerType.ReadsEvery`) holds of a pair
of types if and only if the one is among the sources of the other
(`IntegerType.readsEvery_iff`).
-/

import EntityQuery.Proofs.Entity.Reading

namespace EntityQuery

/-! ### Cells of integers -/

/-- The number that a cell of an integer type holds, with the type. -/
def Cell.integer? : Cell → Option (IntegerType × Int)
  | .int32 (some n) => some (.int32, n.toInt)
  | .int64 (some n) => some (.int64, n.toInt)
  | .uint32 (some n) => some (.uint32, n.toNat)
  | .uint64 (some n) => some (.uint64, n.toNat)
  | _ => none

/-- A cell that holds an integer is not null, and of the type of the integer. -/
theorem Cell.integer?_eq_some {c : Cell} {s : IntegerType} {n : Int}
    (h : c.integer? = some (s, n)) :
    (∃ k, s = .int32 ∧ n = k.toInt ∧ c = .int32 (some k)) ∨
      (∃ k, s = .int64 ∧ n = k.toInt ∧ c = .int64 (some k)) ∨
      (∃ k, s = .uint32 ∧ n = k.toNat ∧ c = .uint32 (some k)) ∨
      ∃ k, s = .uint64 ∧ n = k.toNat ∧ c = .uint64 (some k) := by
  unfold integer? at h
  split at h
  · next k => cases h; exact .inl ⟨k, rfl, rfl, rfl⟩
  · next k => cases h; exact .inr (.inl ⟨k, rfl, rfl, rfl⟩)
  · next k => cases h; exact .inr (.inr (.inl ⟨k, rfl, rfl, rfl⟩))
  · next k => cases h; exact .inr (.inr (.inr ⟨k, rfl, rfl, rfl⟩))
  · cases h

/-- A cell that holds an integer is not null. -/
theorem Cell.isNull_of_integer? {c : Cell} {s : IntegerType} {n : Int}
    (h : c.integer? = some (s, n)) : c.isNull = false := by
  obtain ⟨k, -, -, rfl⟩ | ⟨k, -, -, rfl⟩ | ⟨k, -, -, rfl⟩ | ⟨k, -, -, rfl⟩ :=
    integer?_eq_some h <;> rfl

namespace IntegerType

variable {s t : IntegerType} {c : Cell} {n : Int}

/-- The types of the cells that a type is read from. -/
def sources : IntegerType → List IntegerType
  | int32 => [int32, int64]
  | int64 => [int64, int32, uint32]
  | uint32 => [uint32, int64]
  | uint64 => [uint64, uint32, int64]

/-! ### Reading -/

/-- From its own type and from a narrower one, a type reads every number. -/
theorem read_of_le (hs : s ∈ t.sources) (hwide : s ≠ int64 ∨ t = int64)
    (hc : c.integer? = some (s, n)) :
    ∃ v, t.columnType.read c = .ok v ∧ v.integer? = some (t, n) := by
  obtain ⟨k, rfl, rfl, rfl⟩ | ⟨k, rfl, rfl, rfl⟩ | ⟨k, rfl, rfl, rfl⟩ | ⟨k, rfl, rfl, rfl⟩ :=
    Cell.integer?_eq_some hc
  · cases t with
    | int32 => exact ⟨.int32 k, rfl, rfl⟩
    | int64 =>
      have hk := fits_int32.1 ⟨Int32.minValue_le_toInt k, Int32.toInt_le k⟩
      refine ⟨.int64 (Int64.ofInt k.toInt), rfl, ?_⟩
      rw [ColumnValue.integer?, Int64.toInt_ofInt_of_le (by omega) (by omega)]
    | uint32 => simp [sources] at hs
    | uint64 => simp [sources] at hs
  · cases t with
    | int64 => exact ⟨.int64 k, rfl, rfl⟩
    | _ => simp at hwide
  · have hk := k.toNat_lt
    cases t with
    | int32 => simp [sources] at hs
    | int64 =>
      refine ⟨.int64 (Int64.ofInt k.toNat), rfl, ?_⟩
      rw [ColumnValue.integer?, Int64.toInt_ofInt_of_le (by omega) (by omega)]
    | uint32 => exact ⟨.uint32 k, rfl, rfl⟩
    | uint64 =>
      refine ⟨.uint64 (UInt64.ofNat k.toNat), rfl, ?_⟩
      rw [ColumnValue.integer?, UInt64.toNat_ofNat_of_lt' (Nat.lt_trans hk (by decide))]
  · cases t with
    | uint64 => exact ⟨.uint64 k, rfl, rfl⟩
    | _ => simp [sources] at hs

/-- **From its sources a type reads what fits,** and nothing else is in its range. -/
theorem read_of_mem_sources (hs : s ∈ t.sources) (hc : c.integer? = some (s, n)) :
    (t.Fits n → ∃ v, t.columnType.read c = .ok v ∧ v.integer? = some (t, n)) ∧
      (¬ t.Fits n → t.columnType.read c = .error (.outOfRange n t.columnType)) := by
  by_cases hwide : s ≠ int64 ∨ t = int64
  · obtain ⟨v, hread, hv⟩ := read_of_le hs hwide hc
    exact ⟨fun _ => ⟨v, hread, hv⟩, fun hfits => absurd (fits_of_integer? hv) hfits⟩
  · obtain rfl : s = int64 := by simp at hwide; exact hwide.1
    obtain ⟨k, hk, -, -⟩ | ⟨k, -, rfl, rfl⟩ | ⟨k, hk, -, -⟩ | ⟨k, hk, -, -⟩ :=
      Cell.integer?_eq_some hc
    · cases hk
    · exact ⟨read_eq_ok, read_eq_error⟩
    · cases hk
    · cases hk

/-- **From other types a type reads nothing,** whatever the number. -/
theorem read_of_notMem_sources (hs : s ∉ t.sources) (hc : c.integer? = some (s, n)) :
    t.columnType.read c = .error (.unexpected t.columnType) := by
  obtain ⟨k, rfl, -, rfl⟩ | ⟨k, rfl, -, rfl⟩ | ⟨k, rfl, -, rfl⟩ | ⟨k, rfl, -, rfl⟩ :=
    Cell.integer?_eq_some hc <;> cases t <;> first | rfl | simp [sources] at hs

/-! ### The rule -/

/-- A column of the type `t` reads every number that a cell of the type `s` holds, where the
number fits, and fails where it does not. -/
def ReadsEvery (t s : IntegerType) : Prop :=
  ∀ (r : Row) (name : String) (isOptional : Bool) (c : Cell) (n : Int),
    r.get? name = some c → c.integer? = some (s, n) →
      (t.Fits n → ∃ v, r.read name t.columnType isOptional = .ok v ∧
        v.integer? = some (t, n)) ∧
      (¬ t.Fits n → ∃ e, r.read name t.columnType isOptional = .error e)

/-- Zero is held by a cell of every type, and fits every type. -/
theorem exists_zero (s : IntegerType) : ∃ c : Cell, c.integer? = some (s, 0) := by
  cases s with
  | int32 => exact ⟨.int32 (some 0), rfl⟩
  | int64 => exact ⟨.int64 (some 0), rfl⟩
  | uint32 => exact ⟨.uint32 (some 0), rfl⟩
  | uint64 => exact ⟨.uint64 (some 0), rfl⟩

/-- Zero is in the range of every type. -/
theorem fits_zero (t : IntegerType) : t.Fits 0 := by cases t <;> decide

/-- **Which integers are read.**  The rule that a number is read where it fits holds of a
pair of types if and only if the one is read from the other.  Where it holds, a number that
does not fit is out of range; where it does not, every number is refused for its type. -/
theorem readsEvery_iff (t s : IntegerType) :
    (t.ReadsEvery s ↔ s ∈ t.sources) ∧
      ∀ (r : Row) (name : String) (isOptional : Bool) (c : Cell) (n : Int),
        r.get? name = some c → c.integer? = some (s, n) →
          (s ∈ t.sources → ¬ t.Fits n →
            r.read name t.columnType isOptional = .error (.outOfRange n t.columnType)) ∧
          (s ∉ t.sources →
            r.read name t.columnType isOptional = .error (.unexpected t.columnType)) := by
  refine ⟨⟨fun hrule => ?_, fun hs r name isOptional c n hr hc => ?_⟩,
    fun r name isOptional c n hr hc => ?_⟩
  · -- a zero tells the pairs apart, for it fits every type
    by_contra hs
    obtain ⟨c, hc⟩ := exists_zero s
    have hr : (⟨"", [⟨"", c⟩]⟩ : Row).get? "" = some c := rfl
    obtain ⟨v, hv, -⟩ := (hrule _ "" false c 0 hr hc).1 t.fits_zero
    rw [Row.read_of_not_isNull hr (Cell.isNull_of_integer? hc), read_of_notMem_sources hs hc] at hv
    cases hv
  · rw [Row.read_of_not_isNull hr (Cell.isNull_of_integer? hc)]
    obtain ⟨hfits, hrange⟩ := read_of_mem_sources hs hc
    exact ⟨hfits, fun hn => ⟨_, hrange hn⟩⟩
  · rw [Row.read_of_not_isNull hr (Cell.isNull_of_integer? hc)]
    exact ⟨fun hs => (read_of_mem_sources hs hc).2, fun hs => read_of_notMem_sources hs hc⟩

/-- The hypotheses of `readsEvery_iff` are satisfiable: 3000000000 in an unsigned cell of 32
bits is read by a column of 64 bits; in a signed cell of 64 bits it is out of the range of a
signed column of 32 bits; and in an unsigned cell of 64 bits none of the signed columns
reads it. -/
theorem readsEvery_iff_large :
    let row (c : Cell) : Row := ⟨"0", [⟨"n", c⟩]⟩
    (∃ v, (row (.uint32 (some 3000000000))).read "n" .int64 false = .ok v ∧
        v.integer? = some (int64, 3000000000)) ∧
      (row (.int64 (some 3000000000))).read "n" .int32 true
        = .error (.outOfRange 3000000000 .int32) ∧
      (row (.uint64 (some 3000000000))).read "n" .int32 false = .error (.unexpected .int32) ∧
      (row (.uint64 (some 3000000000))).read "n" .int64 false = .error (.unexpected .int64) := by
  intro row
  have hread := (readsEvery_iff int64 uint32).1.2 (by decide) (row (.uint32 (some 3000000000)))
    "n" false _ 3000000000 rfl rfl
  exact ⟨hread.1 (by decide),
    ((readsEvery_iff int32 int64).2 _ "n" true _ _ rfl rfl).1 (by decide) (by decide),
    ((readsEvery_iff int32 uint64).2 _ "n" false _ _ rfl rfl).2 (by decide),
    ((readsEvery_iff int64 uint64).2 _ "n" false _ _ rfl rfl).2 (by decide)⟩

/-- An unsigned 7 of 64 bits fits a signed column of 64 bits, which does not read it. -/
theorem not_readsEvery_seven : ¬ ∀ t s : IntegerType, t.ReadsEvery s := by
  intro hrule
  have hr : (⟨"0", [⟨"n", .uint64 (some 7)⟩]⟩ : Row).get? "n" = some (.uint64 (some 7)) := rfl
  obtain ⟨v, hv, -⟩ := (hrule int64 uint64 _ "n" false _ 7 hr rfl).1 (by decide)
  cases hv

end IntegerType
end EntityQuery
