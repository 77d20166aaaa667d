/-
# Reading rows

In a row whose columns have distinct names every cell is found under its own, in whatever
order they stand and whatever else is in the row.  Stores report every integer in 64 bits,
so a column of any integer type is read from such a cell: a number of the type's range is
read as itself, any other is refused, and none is wrapped.
-/

import EntityQuery.Entity.Basic
import Mathlib.Data.List.Nodup

namespace EntityQuery

/-! ### Lookup -/

namespace Row

variable {r : Row} {g : Field} {name : String} {c : Cell} {t : ColumnType}

/-- A cell is found under its name if no other field has this name. -/
theorem get?_of_mem (hg : g ∈ r.fields) (hunique : ∀ k ∈ r.fields, k.name = g.name → k = g) :
    r.get? g.name = some g.cell := by
  have hfound : (r.fields.find? (·.name = g.name)).isSome :=
    List.find?_isSome.2 ⟨g, hg, decide_eq_true rfl⟩
  obtain ⟨k, hk⟩ := Option.isSome_iff_exists.1 hfound
  have hname : k.name = g.name := by simpa using List.find?_some hk
  rw [get?, hk, hunique k (List.mem_of_find?_eq_some hk) hname]
  rfl

/-- Fields of distinct names are found in every row that holds them in some order beside
fields of other names. -/
theorem get?_of_perm {fields others : List Field} {f : Field}
    (hrow : r.fields.Perm (fields ++ others)) (hnodup : (fields.map (·.name)).Nodup)
    (hf : f ∈ fields) (hothers : ∀ g ∈ others, g.name ≠ f.name) :
    r.get? f.name = some f.cell := by
  refine get?_of_mem (hrow.mem_iff.2 (List.mem_append_left others hf)) fun g hg hname => ?_
  rcases List.mem_append.1 (hrow.mem_iff.1 hg) with hg | hg
  · exact List.inj_on_of_nodup_map hnodup hg hf hname
  · exact absurd hname (hothers g hg)

/-- An optional column is empty where the row has a null. -/
theorem read_of_isNull (h : r.get? name = some c) (hnull : c.isNull) :
    r.read name t true = .ok .none := by
  simp [read, h, hnull]

/-- A column that is not null is read by its type, optional or not. -/
theorem read_of_not_isNull (h : r.get? name = some c) (hnull : c.isNull = false)
    (isOptional : Bool) : r.read name t isOptional = t.read c := by
  simp [read, h, hnull]

end Row

/-! ### Integers -/

/-- The integer types that a column can be read as. -/
inductive IntegerType
  | int32 | int64 | uint32 | uint64
deriving DecidableEq

namespace IntegerType

/-- An integer type as a column type. -/
def columnType : IntegerType → ColumnType
  | int32 => .int32
  | int64 => .int64
  | uint32 => .uint32
  | uint64 => .uint64

/-- The least number of a type. -/
def least : IntegerType → Int
  | int32 => Int32.minValue.toInt
  | int64 => Int64.minValue.toInt
  | uint32 | uint64 => 0

/-- The greatest number of a type. -/
def greatest : IntegerType → Int
  | int32 => Int32.maxValue.toInt
  | int64 => Int64.maxValue.toInt
  | uint32 => (UInt32.size - 1 : Nat)
  | uint64 => (UInt64.size - 1 : Nat)

/-- A number lies in the range of a type. -/
def Fits (t : IntegerType) (n : Int) : Prop := t.least ≤ n ∧ n ≤ t.greatest

instance (t : IntegerType) (n : Int) : Decidable (t.Fits n) :=
  inferInstanceAs (Decidable (_ ∧ _))

/-- The range of signed integers of 32 bits. -/
theorem fits_int32 {n : Int} : int32.Fits n ↔ -2147483648 ≤ n ∧ n < 2147483648 := by
  simp only [Fits, least, greatest, show Int32.minValue.toInt = -2147483648 from rfl,
    show Int32.maxValue.toInt = 2147483647 from rfl]
  omega

/-- Every integer of a store is a signed integer of 64 bits. -/
theorem fits_int64 (n : Int64) : int64.Fits n.toInt :=
  ⟨Int64.minValue_le_toInt n, Int64.toInt_le n⟩

/-- The range of unsigned integers of 32 bits. -/
theorem fits_uint32 {n : Int} : uint32.Fits n ↔ 0 ≤ n ∧ n < 4294967296 := by
  simp only [Fits, least, greatest, show UInt32.size = 4294967296 from rfl]
  omega

/-- An integer of a store is an unsigned integer of 64 bits unless it is negative. -/
theorem fits_uint64 (n : Int64) : uint64.Fits n.toInt ↔ 0 ≤ n.toInt := by
  have h := Int64.toInt_lt n
  simp only [Fits, least, greatest, show UInt64.size = 18446744073709551616 from rfl]
  omega

end IntegerType

/-- The number that a value of an integer type stands for, with the type. -/
def ColumnValue.integer? : ColumnValue → Option (IntegerType × Int)
  | .int32 n => some (.int32, n.toInt)
  | .int64 n => some (.int64, n.toInt)
  | .uint32 n => some (.uint32, n.toNat)
  | .uint64 n => some (.uint64, n.toNat)
  | _ => .none

/-- No two values stand for the same number of the same type. -/
theorem ColumnValue.integer?_injective {v w : ColumnValue} {p : IntegerType × Int}
    (hv : v.integer? = some p) (hw : w.integer? = some p) : v = w := by
  cases v <;> cases hv <;> cases w <;>
    simp only [integer?, reduceCtorEq, Option.some.injEq, Prod.mk.injEq, true_and, false_and,
      Int32.toInt_inj, Int64.toInt_inj, Int.natCast_inj, UInt32.toNat_inj, UInt64.toNat_inj] at hw
  all_goals rw [hw]

namespace IntegerType

/-- An integer of 64 bits in the range of a type is read as the same number. -/
theorem read_eq_ok {t : IntegerType} {n : Int64} (h : t.Fits n.toInt) :
    ∃ v, t.columnType.read (.int64 (some n)) = .ok v ∧ v.integer? = some (t, n.toInt) := by
  cases t with
  | int32 =>
    have hn := fits_int32.1 h
    refine ⟨.int32 (Int32.ofInt n.toInt), ?_, ?_⟩
    · simp only [columnType, ColumnType.read, Cell.toInt32]
      rw [if_pos (by omega)]
      rfl
    · simp only [ColumnValue.integer?]
      rw [Int32.toInt_ofInt_of_le (by omega) (by omega)]
  | int64 => exact ⟨.int64 n, rfl, rfl⟩
  | uint32 =>
    have hn := fits_uint32.1 h
    refine ⟨.uint32 (UInt32.ofNat n.toInt.toNat), ?_, ?_⟩
    · simp only [columnType, ColumnType.read, Cell.toUInt32]
      rw [if_pos (by omega)]
      rfl
    · have hlt : n.toInt.toNat < UInt32.size := by
        simp only [show UInt32.size = 4294967296 from rfl]
        omega
      simp only [ColumnValue.integer?]
      rw [UInt32.toNat_ofNat_of_lt' hlt, Int.toNat_of_nonneg hn.1]
  | uint64 =>
    have hn := (fits_uint64 n).1 h
    refine ⟨.uint64 (UInt64.ofNat n.toInt.toNat), ?_, ?_⟩
    · simp only [columnType, ColumnType.read, Cell.toUInt64]
      rw [if_pos hn]
      rfl
    · have hlt : n.toInt.toNat < UInt64.size := by
        have := Int64.toInt_lt n
        simp only [show UInt64.size = 18446744073709551616 from rfl]
        omega
      simp only [ColumnValue.integer?]
      rw [UInt64.toNat_ofNat_of_lt' hlt, Int.toNat_of_nonneg hn]

/-- An integer of 64 bits outside the range of a type is refused. -/
theorem read_eq_error {t : IntegerType} {n : Int64} (h : ¬ t.Fits n.toInt) :
    t.columnType.read (.int64 (some n)) = .error (.outOfRange n.toInt t.columnType) := by
  cases t with
  | int32 =>
    rw [fits_int32] at h
    simp only [columnType, ColumnType.read, Cell.toInt32]
    rw [if_neg (by omega)]
    rfl
  | int64 => exact absurd (fits_int64 n) h
  | uint32 =>
    rw [fits_uint32] at h
    simp only [columnType, ColumnType.read, Cell.toUInt32]
    rw [if_neg (by omega)]
    rfl
  | uint64 =>
    rw [fits_uint64] at h
    simp only [columnType, ColumnType.read, Cell.toUInt64]
    rw [if_neg h]
    rfl

/-- A value of an integer type stands for a number of the type. -/
theorem fits_of_integer? {t : IntegerType} {v : ColumnValue} {n : Int}
    (h : v.integer? = some (t, n)) : t.Fits n := by
  cases v with
  | int32 k =>
    obtain ⟨rfl, rfl⟩ := Prod.mk.inj (Option.some.inj h)
    exact ⟨Int32.minValue_le_toInt k, Int32.toInt_le k⟩
  | int64 k =>
    obtain ⟨rfl, rfl⟩ := Prod.mk.inj (Option.some.inj h)
    exact fits_int64 k
  | uint32 k =>
    obtain ⟨rfl, rfl⟩ := Prod.mk.inj (Option.some.inj h)
    have := k.toNat_lt
    exact fits_uint32.2 (by omega)
  | uint64 k =>
    obtain ⟨rfl, rfl⟩ := Prod.mk.inj (Option.some.inj h)
    have := k.toNat_lt
    exact ⟨by simp [least], by simp [greatest, UInt64.size]; omega⟩
  | _ => cases h

/-- **A number of 64 bits is read as the value of the type that stands for it.** -/
theorem read_of_integer? {t : IntegerType} {n : Int64} {v : ColumnValue}
    (h : v.integer? = some (t, n.toInt)) : t.columnType.read (.int64 (some n)) = .ok v := by
  obtain ⟨w, hread, hw⟩ := read_eq_ok (fits_of_integer? h)
  rw [hread, ColumnValue.integer?_injective hw h]

end IntegerType
end EntityQuery
