/-
# Entities

An entity is a table with typed columns, some of them named as attributes for use in
conditions.  A row is read as a record of the entity column by column, each under its
own name (`Entity.read`); an optional column is empty where the row has a null or no
such column.
-/

import EntityQuery.Entity.Reading

namespace EntityQuery

open Binary Calendar

/-- The value of a column in a record. -/
inductive ColumnValue
  /-- The empty value of an optional column. -/
  | none
  | bool (value : Bool)
  | int32 (value : Int32)
  | int64 (value : Int64)
  | uint32 (value : UInt32)
  | uint64 (value : UInt64)
  | float (value : Single)
  | double (value : Double)
  | text (value : String)
  | bytes (value : List UInt8)
  | instant (value : DateTime)
  | date (value : Date)
  | json (value : Json)

/-- A cell read as a column type. -/
def ColumnType.read (c : Cell) : ColumnType → Except ReadError ColumnValue
  | .bool => c.toBool.map .bool
  | .int32 => c.toInt32.map .int32
  | .int64 => c.toInt64.map .int64
  | .uint32 => c.toUInt32.map .uint32
  | .uint64 => c.toUInt64.map .uint64
  | .float => c.toSingle.map .float
  | .double => c.toDouble.map .double
  | .text => c.toText.map .text
  | .bytes => c.toBytes.map .bytes
  | .instant => c.toInstant.map .instant
  | .date => c.toDate.map .date
  | .json => c.toJson.map .json

/-- A column of an entity. -/
structure Column where
  name : String
  type : ColumnType
  /-- Whether the column may be empty. -/
  isOptional : Bool
  /-- The name of the column's attribute, if it has one. -/
  attributeName : Option String

/-- The value of a column in a row. -/
def Row.read (r : Row) (name : String) (type : ColumnType) (isOptional : Bool) :
    Except ReadError ColumnValue :=
  match r.get? name with
  | .none => if isOptional then .ok .none else .error (.missingColumn name)
  | .some c => if isOptional && c.isNull then .ok .none else type.read c

/-- What queries know of a table: its name and the names of its columns. -/
structure Source where
  table : String
  columns : List String
deriving DecidableEq

/-- The values of an entity's columns, by name. -/
abbrev Record := List (String × ColumnValue)

/-- A table with typed columns. -/
structure Entity where
  table : String
  columns : List Column

namespace Entity

/-- The names of the columns, which are what a query selects. -/
def projection (e : Entity) : List String := e.columns.map (·.name)

/-- The entity as queries know it. -/
def source (e : Entity) : Source := ⟨e.table, e.projection⟩

/-- The named attributes, each with the column it stands for. -/
def attributes (e : Entity) : List (String × String) :=
  e.columns.filterMap fun c => c.attributeName.map fun a => (a, c.name)

/-- A row as a record; the first column that cannot be read is the error. -/
def read (e : Entity) (r : Row) : Except ReadError Record :=
  e.columns.mapM fun c => (r.read c.name c.type c.isOptional).map fun v => (c.name, v)

end Entity

end EntityQuery
