/-
# Compiling criteria

Criteria become a select statement for a result type.  The columns of the result have
to be columns of the root entity.  Explicit joins come first, each before the joins
below it, so that a join's condition sees only tables joined before it; they take their
names into use in this order.  Then the conditions are resolved, then the sort keys;
the joins that their paths require come last.

A statement has an offset only beside a limit, as stores want it; without one the rows
to skip are left to the runner (`Compiled.pendingOffset`).  Both bounds are capped at
the largest signed integer of 64 bits.
-/

import EntityQuery.Criteria.Basic
import EntityQuery.Sql.Backend
import EntityQuery.Sql.Filter

namespace EntityQuery

namespace JoinNode

mutual

/-- The joins of a node: itself, joined on its keys and its conditions, then those below
it. -/
def compile : JoinNode → Resolving (List Join)
  | ⟨relation, qualifier, parent, kind, conditions, children⟩ => do
    Resolver.reserve qualifier
    let scope : Scope := ⟨.join, qualifier, relation.target⟩
    let keys :=
      Expr.equal ⟨parent, relation.localColumn⟩ ⟨qualifier, relation.remoteColumn⟩
    let filter ← Predicate.filter scope conditions
    let condition := match filter with
      | none => keys
      | some e => .and keys e
    let rest ← compileAll children
    return ⟨relation.target.table, qualifier, kind, condition⟩ :: rest

/-- The joins of some nodes. -/
def compileAll : List JoinNode → Resolving (List Join)
  | [] => return []
  | n :: ns => do
    let js ← compile n
    let rest ← compileAll ns
    return js ++ rest

end

end JoinNode

/-- The ordering of some sort keys. -/
def SortKey.ordering (scope : Scope) :
    List SortKey → Resolving (List (ColumnRef × Direction))
  | [] => return []
  | k :: ks => do
    let column ← Resolver.resolve scope k.path
    let rest ← ordering scope ks
    return (column, k.direction) :: rest

/-- A compiled query. -/
structure Compiled where
  statement : Select
  offset : UInt64
  rowCount : UInt64
  distinct : Bool
deriving DecidableEq

namespace Compiled

/-- The rows that the statement does not skip itself. -/
def pendingOffset (c : Compiled) : UInt64 := if c.rowCount = 0 then c.offset else 0

/-- The query of a backend. -/
def query (c : Compiled) (b : Backend) : Except QueryError Query := b.query c.statement.tokens

end Compiled

/-- The largest bound that a statement carries. -/
def maxBound : UInt64 := 9223372036854775807

namespace Criteria

/-- The scope of the root entity, which goes by the name of its table. -/
def scope (q : Criteria) : Scope := ⟨.root, q.root.table, q.root⟩

/-- The limit that the statement carries. -/
def statementLimit (q : Criteria) : Option UInt64 :=
  if q.rowCount = 0 then none else some (min q.rowCount maxBound)

/-- The offset that the statement carries. -/
def statementOffset (q : Criteria) : Option UInt64 :=
  if q.rowCount = 0 ∨ q.offset = 0 then none else some (min q.offset maxBound)

/-- The parts of a statement that need names resolved: explicit joins, filter, ordering. -/
def resolveParts (q : Criteria) :
    Resolving (List Join × Option Expr × List (ColumnRef × Direction)) := do
  Resolver.reserve q.root.table
  let joins ← JoinNode.compileAll q.joins
  let filter ← Predicate.filter q.scope q.conditions
  let ordering ← SortKey.ordering q.scope q.keys
  return (joins, filter, ordering)

/-- The compiled query that selects some columns. -/
def compile (q : Criteria) (columns : List String) : Except QueryError Compiled :=
  match columns.find? (· ∉ q.root.columns) with
  | some column => .error (.unknownAttribute q.root.table column)
  | none =>
    match q.resolveParts.runFrom .empty with
    | (.error e, _) => .error e
    | (.ok (joins, filter, ordering), resolver) =>
      .ok {
        statement := {
          columns := columns.map fun c => ⟨q.root.table, c⟩
          table := q.root.table
          joins := joins ++ resolver.joins
          filter
          ordering
          distinct := q.distinct
          limit := q.statementLimit
          offset := q.statementOffset }
        offset := q.offset
        rowCount := q.rowCount
        distinct := q.distinct }

end Criteria
end EntityQuery
