/-
# Reading cells as typed values

Engines differ in how precisely they report the width of an integer, so an integer is
read from several types of cell as long as it fits; the functions below say from which.
Dates and instants are read from their texts, JSON from a text or from bytes.  A null
cell is none of these (`ReadError.unexpected`).
-/

import EntityQuery.Calendar.Reader
import EntityQuery.Json.Reader
import EntityQuery.Value.Cell

namespace EntityQuery

open Binary Calendar

-- powers of natural numbers are core's own, whatever is imported beside this module
attribute [local instance (high)] instPowNat

/-- The types that a column can be read as. -/
inductive ColumnType
  | bool | int32 | int64 | uint32 | uint64 | float | double
  | text | bytes | instant | date | json
deriving DecidableEq

/-- What a column type is called in messages. -/
def ColumnType.label : ColumnType → String
  | bool => "boolean"
  | int32 => "int32"
  | int64 => "int64"
  | uint32 => "uint32"
  | uint64 => "uint64"
  | float => "float"
  | double => "double"
  | text => "string"
  | bytes => "binary"
  | instant => "timestamp"
  | date => "date"
  | json => "json compatible"

/-- Why a column of a row cannot be read. -/
inductive ReadError
  /-- The row has no column of that name. -/
  | missingColumn (name : String)
  /-- The cell is null or of a type that is not read as the wanted one. -/
  | unexpected (wanted : ColumnType)
  /-- The integer does not fit the wanted type. -/
  | outOfRange (value : Int) (wanted : ColumnType)
  | invalidTimestamp (text : String)
  | invalidDate (text : String)
  | invalidJson (error : Json.Error)
deriving DecidableEq

/-- The message of a read error. -/
def ReadError.message : ReadError → String
  | missingColumn name => "missing column '" ++ name ++ "'"
  | unexpected wanted => "expected " ++ wanted.label ++ " data type"
  | outOfRange value wanted =>
    "value " ++ String.ofList (Text.signedDigits value) ++ " out of range for " ++ wanted.label
  | invalidTimestamp text =>
    "unsupported timestamp: " ++ text
      ++ "; expected RFC3339 or \"%Y-%m-%d %H:%M:%S%.f\" format"
  | invalidDate text => "unsupported date: " ++ text ++ "; expected \"%Y-%m-%d\" format"
  | invalidJson .unexpectedEnd => "JSON text ends too early"
  | invalidJson .malformed => "JSON text is malformed"

namespace Cell

/-- A truth value; an integer is true unless it is zero. -/
def toBool : Cell → Except ReadError Bool
  | .bool (some b) => .ok b
  | .int32 (some n) => .ok (n ≠ 0)
  | .int64 (some n) => .ok (n ≠ 0)
  | _ => .error (.unexpected .bool)

/-- A signed integer of 32 bits, from a signed one of 32 or 64. -/
def toInt32 : Cell → Except ReadError Int32
  | .int32 (some n) => .ok n
  | .int64 (some n) =>
    if -2 ^ (31 : Nat) ≤ n.toInt ∧ n.toInt < 2 ^ (31 : Nat) then .ok (Int32.ofInt n.toInt)
    else .error (.outOfRange n.toInt .int32)
  | _ => .error (.unexpected .int32)

/-- A signed integer of 64 bits, from any that cannot exceed it. -/
def toInt64 : Cell → Except ReadError Int64
  | .int64 (some n) => .ok n
  | .int32 (some n) => .ok (Int64.ofInt n.toInt)
  | .uint32 (some n) => .ok (Int64.ofInt n.toNat)
  | _ => .error (.unexpected .int64)

/-- An unsigned integer of 32 bits, from one or from a signed one of 64. -/
def toUInt32 : Cell → Except ReadError UInt32
  | .uint32 (some n) => .ok n
  | .int64 (some n) =>
    if 0 ≤ n.toInt ∧ n.toInt < 2 ^ (32 : Nat) then .ok (UInt32.ofNat n.toInt.toNat)
    else .error (.outOfRange n.toInt .uint32)
  | _ => .error (.unexpected .uint32)

/-- An unsigned integer of 64 bits, from an unsigned one or from a signed one of 64. -/
def toUInt64 : Cell → Except ReadError UInt64
  | .uint64 (some n) => .ok n
  | .uint32 (some n) => .ok (UInt64.ofNat n.toNat)
  | .int64 (some n) =>
    if 0 ≤ n.toInt then .ok (UInt64.ofNat n.toInt.toNat)
    else .error (.outOfRange n.toInt .uint64)
  | _ => .error (.unexpected .uint64)

/-- A number of the shorter format, a double rounded to it. -/
def toSingle : Cell → Except ReadError Single
  | .float (some x) => .ok x
  | .double (some x) => .ok x.toSingle
  | _ => .error (.unexpected .float)

/-- A number of the longer format. -/
def toDouble : Cell → Except ReadError Double
  | .double (some x) => .ok x
  | .float (some x) => .ok x.toDouble
  | _ => .error (.unexpected .double)

/-- A text. -/
def toText : Cell → Except ReadError String
  | .text (some s) => .ok s
  | _ => .error (.unexpected .text)

/-- Bytes. -/
def toBytes : Cell → Except ReadError (List UInt8)
  | .bytes (some bs) => .ok bs
  | _ => .error (.unexpected .bytes)

/-- An instant in universal time, from its text. -/
def toInstant : Cell → Except ReadError DateTime
  | .timestamp (some s) | .text (some s) =>
    match readTimestamp? s.toList with
    | some t => .ok t
    | none => .error (.invalidTimestamp s)
  | _ => .error (.unexpected .instant)

/-- A date, from its text. -/
def toDate : Cell → Except ReadError Date
  | .date (some s) | .text (some s) =>
    match readDate? s.toList with
    | some d => .ok d
    | none => .error (.invalidDate s)
  | _ => .error (.unexpected .date)

/-- A JSON value, from a text or from bytes. -/
def toJson : Cell → Except ReadError Json
  | .text (some s) => (Json.read s.toUTF8.toList).mapError .invalidJson
  | .bytes (some bs) => (Json.read bs).mapError .invalidJson
  | _ => .error (.unexpected .json)

end Cell
end EntityQuery
