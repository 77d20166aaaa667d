/-
# A table store

A store holds at most one table, whose columns have names and no types.  Every statement
passes three gates in this order: it is prepared, which needs the table and as many
placeholders as the table has columns; its parameters are bound from left to right; and
it runs, which needs a parameter for every placeholder and none besides.  A statement
that is stopped at a gate changes nothing.
-/

import EntityQuery.Store.Value
import EntityQuery.Text.Decimal

namespace EntityQuery
namespace Store

/-- A table without column types: its columns and its rows in the order they came. -/
structure Table where
  columns : List String
  rows : List (List StoredValue)
deriving DecidableEq

/-- What a store holds: its table, once it has been created. -/
abbrev Contents := Option Table

/-- The parameters of a statement with some placeholders, as they are kept; `mismatch` is
the error of a wrong number of them. -/
def bindAll (mismatch : StoreError) (placeholders : Nat) (parameters : List Cell) :
    Except StoreError (List StoredValue) := do
  let values ← parameters.mapM StoredValue.ofCell
  if values.length = placeholders then return values.map StoredValue.kept else throw mismatch

/-- The row of some values at a position of a result. -/
def toRow (columns : List String) (index : Nat) (values : List StoredValue) :
    Except StoreError Row := do
  let cells ← values.mapM StoredValue.cell
  return ⟨String.ofList (Text.digits index), columns.zipWith (⟨·, ·⟩) cells⟩

/-- The rows of some lists of values, the first at the position `index`. -/
def toRows (columns : List String) (index : Nat) :
    List (List StoredValue) → Except StoreError (List Row)
  | [] => .ok []
  | values :: rest => do
    let row ← toRow columns index values
    let rows ← toRows columns (index + 1) rest
    return row :: rows

/-- Whether two names are equal but for the case of ASCII letters. -/
def sameName (a b : String) : Bool := a.toLower = b.toLower

/-- Creates the table.  It needs columns, no two of one name, and a store without a
table. -/
def create (columns : List String) : Contents → Except StoreError Contents
  | some _ => .error .batch
  | none =>
    if columns.isEmpty ∨ ¬ columns.Pairwise (fun a b => ¬ sameName a b) then .error .batch
    else .ok (some ⟨columns, []⟩)

/-- Inserts a row. -/
def insert (placeholders : Nat) (parameters : List Cell) :
    Contents → Except StoreError Contents
  | none => .error .prepare
  | some t =>
    if placeholders = t.columns.length then
      (bindAll .execute placeholders parameters).map fun values =>
        some { t with rows := t.rows ++ [values] }
    else .error .prepare

/-- The rows of the table in the order they were inserted. -/
def fetch (parameters : List Cell) : Contents → Except StoreError (List Row)
  | none => .error .prepare
  | some t => do
    let _ ← bindAll .query 0 parameters
    toRows t.columns 0 t.rows

/-- The names of the columns of a result that has no table. -/
def resultColumns (n : Nat) : List String :=
  (List.range n).map fun i => "c" ++ String.ofList (Text.digits i)

/-- One row of the parameters themselves. -/
def select (placeholders : Nat) (parameters : List Cell) : Except StoreError (List Row) := do
  if placeholders = 0 then throw .prepare
  let values ← bindAll .query placeholders parameters
  toRows (resultColumns placeholders) 0 [values]

/-- One row of one parameter, converted to a text. -/
def selectText (parameters : List Cell) : Except StoreError (List Row) := do
  let values ← bindAll .query 1 parameters
  toRows (resultColumns 1) 0 [values.map StoredValue.toText]

end Store
end EntityQuery
