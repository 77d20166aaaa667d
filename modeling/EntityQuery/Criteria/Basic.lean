/-
# Criteria

Criteria describe a query over a root entity: conditions that all have to hold, sort
keys in order of precedence, explicit joins with their own conditions and further joins
below them, a window of rows, and whether equal rows count once.  `Criteria.toText`
sums them up in one line, without the joins.
-/

import EntityQuery.Condition.Predicate
import EntityQuery.Sql.Select

namespace EntityQuery

/-- An attribute to sort by. -/
structure SortKey where
  path : Path
  direction : Direction
deriving DecidableEq

/-- A finished join: what it joins under which name, its conditions, and the joins that
start from it. -/
structure JoinNode where
  relation : Relation
  qualifier : String
  /-- The name of the scope that the join starts from. -/
  parent : String
  kind : JoinKind
  conditions : List Predicate
  children : List JoinNode

/-- A query over a root entity. -/
structure Criteria where
  root : Source
  conditions : List Predicate
  keys : List SortKey
  joins : List JoinNode
  /-- The number of rows to skip. -/
  offset : UInt64
  /-- The largest number of rows to return, `0` for any number. -/
  rowCount : UInt64
  distinct : Bool

/-- The text of a sort key. -/
def SortKey.toText (k : SortKey) : String := k.path.toText ++ " " ++ k.direction.word

/-- The name of a direction in dumps. -/
def Direction.name : Direction → String
  | ascending => "Asc"
  | descending => "Desc"

/-- The name of a kind of join in dumps. -/
def JoinKind.name : JoinKind → String
  | inner => "Inner"
  | left => "Left"
  | right => "Right"
  | full => "Full"

/-- The dump of a sort key. -/
def SortKey.dump (k : SortKey) : Dump :=
  .record "OrderBy" [.field "path" k.path.dump, .field "direction" (.name k.direction.name)]

namespace JoinNode

mutual

/-- The dump of a join. -/
def dump : JoinNode → Dump
  | ⟨relation, qualifier, parent, kind, conditions, children⟩ =>
    .record "JoinNode" [
      .field "hop" relation.hopDump,
      .field "alias" (.text qualifier),
      .field "parent_alias" (.text parent),
      .field "kind" (.name kind.name),
      .field "conditions" (.list (Predicate.dumps conditions)),
      .field "children" (.list (dumps children))]

/-- The dumps of some joins. -/
def dumps : List JoinNode → List Dump
  | [] => []
  | n :: ns => dump n :: dumps ns

end

end JoinNode

namespace Criteria

/-- The criteria that every row of an entity meets. -/
def ofRoot (root : Source) : Criteria :=
  { root, conditions := [], keys := [], joins := [], offset := 0, rowCount := 0,
    distinct := false }

/-- Adds a condition. -/
def filter (q : Criteria) (p : Predicate) : Criteria :=
  { q with conditions := q.conditions ++ [p] }

/-- Adds sort keys behind those already there. -/
def orderBy (q : Criteria) (keys : List SortKey) : Criteria :=
  { q with keys := q.keys ++ keys }

/-- Counts equal rows once. -/
def unique (q : Criteria) : Criteria := { q with distinct := true }

/-- Bounds the number of rows. -/
def limit (q : Criteria) (rowCount : UInt64) : Criteria := { q with rowCount }

/-- Skips rows. -/
def skip (q : Criteria) (offset : UInt64) : Criteria := { q with offset }

/-- Skips rows and bounds the number of the rest. -/
def window (q : Criteria) (offset rowCount : UInt64) : Criteria :=
  { q with offset, rowCount }

/-- Adds a finished join. -/
def attach (q : Criteria) (n : JoinNode) : Criteria := { q with joins := q.joins ++ [n] }

/-- The texts of some parts, the first behind `first` and the others behind `next`. -/
def listed (first next : String) : List String → String
  | [] => ""
  | s :: ss => first ++ s ++ ss.foldr (fun t rest => next ++ t ++ rest) ""

/-- The criteria in one line; sections without content are left out. -/
def toText (q : Criteria) : String :=
  "FROM " ++ q.root.table
    ++ listed " WHERE " " AND " (q.conditions.map Predicate.toText)
    ++ listed " ORDER BY " ", " (q.keys.map SortKey.toText)
    ++ if q.offset = 0 ∧ q.rowCount = 0 then ""
      else " LIMIT " ++ String.ofList (Text.digits q.offset.toNat)
        ++ "," ++ String.ofList (Text.digits q.rowCount.toNat)

/-- The dump of criteria. -/
def dump (q : Criteria) : Dump :=
  .record "EasyCriteriaQuery" [
    .field "conditions" (.list (Predicate.dumps q.conditions)),
    .field "orders" (.list (q.keys.map SortKey.dump)),
    .field "joins" (.list (JoinNode.dumps q.joins)),
    .field "offset" (.number q.offset.toNat),
    .field "row_count" (.number q.rowCount.toNat),
    .field "distinct" (.flag q.distinct)]

end Criteria
end EntityQuery
