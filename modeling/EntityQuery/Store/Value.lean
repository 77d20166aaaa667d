/-
# Stored values

A store keeps values of five kinds, whatever the column.  Binding a cell forgets its
type: integers of all widths become integers of 64 bits, floats become doubles, dates
and times become texts, and every null is the same null.  An unsigned integer beyond the
signed range cannot be bound.  What is bound is kept as it is (`StoredValue.kept`), but for
a double that is no number, which is kept as null.  Reading back gives the widest type of
each kind; a null reads as a null text.
-/

import EntityQuery.Json.Reader
import EntityQuery.Store.Real
import EntityQuery.Value.Cell

namespace EntityQuery
namespace Store

open Binary

-- powers of natural numbers are core's own, whatever is imported beside this module
attribute [local instance (high)] instPowNat

/-- A value that a store keeps.  Texts are kept as bytes, which need not be valid. -/
inductive StoredValue
  | null
  | integer (value : Int64)
  | real (value : Double)
  | text (bytes : List UInt8)
  | blob (bytes : List UInt8)
deriving DecidableEq

/-- Why a store refuses. -/
inductive StoreError
  /-- The statement cannot be prepared. -/
  | prepare
  /-- The statement does not run with these parameters. -/
  | execute
  /-- The query does not run with these parameters. -/
  | query
  /-- A statement without parameters fails. -/
  | batch
  /-- An unsigned parameter is too large. -/
  | oversizedInteger
  /-- A text read back is not UTF-8. -/
  | invalidText
deriving DecidableEq

/-- The message of a store error. -/
def StoreError.message : StoreError → String
  | prepare => "failed to prepare statement"
  | execute => "failed to execute statement"
  | query => "failed to execute query"
  | batch => "failed to execute batch"
  | oversizedInteger => "unsigned value exceeds SQLite integer range"
  | invalidText => "invalid UTF-8 in text value"

namespace StoredValue

/-- An optional value of a kind, or null. -/
def orNull (f : α → StoredValue) : Option α → StoredValue
  | none => .null
  | some a => f a

/-- A text as it is bound. -/
def ofText (s : String) : StoredValue := .text s.toUTF8.toList

/-- A cell as it is bound. -/
def ofCell : Cell → Except StoreError StoredValue
  | .bool v => .ok (orNull (fun b => .integer (cond b 1 0)) v)
  | .int32 v => .ok (orNull (.integer ·.toInt64) v)
  | .int64 v => .ok (orNull .integer v)
  | .uint32 v => .ok (orNull (fun n => .integer (Int64.ofNat n.toNat)) v)
  | .uint64 none => .ok .null
  | .uint64 (some n) =>
    if n.toNat < 2 ^ (63 : Nat) then .ok (.integer (Int64.ofNat n.toNat))
    else .error .oversizedInteger
  | .float v => .ok (orNull (.real ·.toDouble) v)
  | .double v => .ok (orNull .real v)
  | .text v | .date v | .time v | .timestamp v => .ok (orNull ofText v)
  | .bytes v => .ok (orNull .blob v)

/-- A bound value as it is kept: a double that is no number becomes null. -/
def kept : StoredValue → StoredValue
  | .real x => if x.isNaN then .null else .real x
  | v => v

/-- The cell that a kept value reads back as. -/
def cell : StoredValue → Except StoreError Cell
  | .null => .ok (.text none)
  | .integer n => .ok (.int64 (some n))
  | .real x => .ok (.double (some x))
  | .text bs =>
    match Json.textOfBytes? bs with
    | some s => .ok (.text (some s))
    | none => .error .invalidText
  | .blob bs => .ok (.bytes (some bs))

/-- A value converted to a text; the bytes of a blob become the text. -/
def toText : StoredValue → StoredValue
  | .null => .null
  | .integer n => ofText (String.ofList (Text.signedDigits n.toInt))
  | .real x => ofText (String.ofList (realText x))
  | .text bs | .blob bs => .text bs

end StoredValue
end Store
end EntityQuery
