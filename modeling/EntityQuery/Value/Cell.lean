/-
# Cells and rows

A cell is a column's value as it is exchanged with a store: one of twelve types, null
in any of them.  A row holds named cells in the order of its columns; a name that
stands twice is looked up at its first place.
-/

import EntityQuery.Binary.Format

namespace EntityQuery

open Binary

/-- A column's value, `none` being null. -/
inductive Cell
  | bool (value : Option Bool)
  | int32 (value : Option Int32)
  | int64 (value : Option Int64)
  | uint32 (value : Option UInt32)
  | uint64 (value : Option UInt64)
  | float (value : Option Single)
  | double (value : Option Double)
  | text (value : Option String)
  | bytes (value : Option (List UInt8))
  | date (value : Option String)
  | time (value : Option String)
  | timestamp (value : Option String)
deriving DecidableEq

/-- Whether a cell is null. -/
def Cell.isNull : Cell → Bool
  | .bool v => v.isNone
  | .int32 v => v.isNone
  | .int64 v => v.isNone
  | .uint32 v => v.isNone
  | .uint64 v => v.isNone
  | .float v => v.isNone
  | .double v => v.isNone
  | .text v | .date v | .time v | .timestamp v => v.isNone
  | .bytes v => v.isNone

/-- A named cell. -/
structure Field where
  name : String
  cell : Cell
deriving DecidableEq

/-- One row of a result. -/
structure Row where
  /-- The position of the row in its result, in decimal. -/
  index : String
  fields : List Field
deriving DecidableEq

/-- The cell under a name. -/
def Row.get? (r : Row) (name : String) : Option Cell :=
  (r.fields.find? (·.name = name)).map (·.cell)

end EntityQuery
