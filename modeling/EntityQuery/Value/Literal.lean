/-
# Literals

A literal is a value that a condition compares with, of one of the types that columns
can have in a program; the null of every type is a literal of its own.  A literal is
bound to its statement as a `Cell` (`Literal.cell?`): integers of fewer than 32 bits
are widened, characters and dates become texts.  Instants at an offset, and the null of
instants in the local zone, have no cell.
-/

import EntityQuery.Binary.Shortest
import EntityQuery.Calendar.Printer
import EntityQuery.Text.Dump
import EntityQuery.Value.Cell

namespace EntityQuery

open Binary Calendar

/-- A value that a condition compares with, `none` being the null of its type. -/
inductive Literal
  | bool (value : Option Bool)
  | int8 (value : Option Int8)
  | int16 (value : Option Int16)
  | int32 (value : Option Int32)
  | int64 (value : Option Int64)
  | uint8 (value : Option UInt8)
  | uint16 (value : Option UInt16)
  | uint32 (value : Option UInt32)
  | uint64 (value : Option UInt64)
  | float (value : Option Single)
  | double (value : Option Double)
  | text (value : Option String)
  | char (value : Option Char)
  | bytes (value : Option (List UInt8))
  | date (value : Option Date)
  | time (value : Option TimeOfDay)
  | dateTime (value : Option DateTime)
  /-- An instant in universal time. -/
  | instant (value : Option DateTime)
  | zonedInstant (value : Option ZonedDateTime)
  /-- The null of instants in the local zone. -/
  | localInstant
deriving DecidableEq

namespace Literal

/-- The cell that a literal is bound as, if there is one. -/
def cell? : Literal → Option Cell
  | bool v => some (.bool v)
  | int8 v => some (.int32 (v.map Int8.toInt32))
  | int16 v => some (.int32 (v.map Int16.toInt32))
  | int32 v => some (.int32 v)
  | int64 v => some (.int64 v)
  | uint8 v => some (.uint32 (v.map UInt8.toUInt32))
  | uint16 v => some (.uint32 (v.map UInt16.toUInt32))
  | uint32 v => some (.uint32 v)
  | uint64 v => some (.uint64 v)
  | float v => some (.float v)
  | double v => some (.double v)
  | text v => some (.text v)
  | char v => some (.text (v.map fun c => String.ofList [c]))
  | bytes v => some (.bytes v)
  | date v => some (.date (v.map fun d => String.ofList d.text))
  | time v => some (.time (v.map fun t => String.ofList t.text))
  | dateTime v => some (.timestamp (v.map fun t => String.ofList (t.text ' ')))
  | instant v => some (.timestamp (v.map fun t => String.ofList t.instantText))
  | zonedInstant _ => none
  | localInstant => none

/-- The dump of a value that may be missing, inside the name of its type. -/
def typed {α : Type} (type : String) (f : α → Dump) (v : Option α) : Dump :=
  .tuple type [.optional f v]

/-- The dump of a literal: the name of its type around the value. -/
def dump : Literal → Dump
  | bool v => typed "Bool" .flag v
  | int8 v => typed "TinyInt" (.number ·.toInt) v
  | int16 v => typed "SmallInt" (.number ·.toInt) v
  | int32 v => typed "Int" (.number ·.toInt) v
  | int64 v => typed "BigInt" (.number ·.toInt) v
  | uint8 v => typed "TinyUnsigned" (.number ·.toNat) v
  | uint16 v => typed "SmallUnsigned" (.number ·.toNat) v
  | uint32 v => typed "Unsigned" (.number ·.toNat) v
  | uint64 v => typed "BigUnsigned" (.number ·.toNat) v
  | float v => typed "Float" (.word ·.text) v
  | double v => typed "Double" (.word ·.text) v
  | text v => typed "String" .text v
  | char v => typed "Char" (.word <| Text.quotedChar ·) v
  | bytes v => typed "Bytes" (fun bs => .list (bs.map (.number ·.toNat))) v
  | date v => typed "ChronoDate" (.word ·.text) v
  | time v => typed "ChronoTime" (.word ·.text) v
  | dateTime v => typed "ChronoDateTime" (.word <| ·.text 'T') v
  | instant v => typed "ChronoDateTimeUtc" (fun t => .word (t.text 'T' ++ ['Z'])) v
  | zonedInstant v => typed "ChronoDateTimeWithTimeZone" (.word ·.text) v
  | localInstant => .tuple "ChronoDateTimeLocal" [.name "None"]

end Literal
end EntityQuery
