/-
# Drafting criteria step by step

Criteria are drafted by steps.  Opening a join makes it the current scope: conditions
and joins that follow belong to it, until it is closed and attached to the scope it was
opened in.  The steps for conditions of the query, sort keys and the window belong to
the root, those for conditions of a join to an open join; elsewhere they are refused
(`Draft.step?`).
-/

import EntityQuery.Criteria.Basic

namespace EntityQuery

/-- A step of a draft. -/
inductive Step
  | filter (p : Predicate)
  | orderBy (keys : List SortKey)
  | unique
  | limit (rowCount : UInt64)
  | skip (offset : UInt64)
  | window (offset rowCount : UInt64)
  /-- Opens a join, which goes by the relation's name unless it is given another. -/
  | openJoin (relation : Relation) (kind : JoinKind) (qualifier : Option String)
  /-- Adds a condition to the current join. -/
  | restrict (p : Predicate)
  | closeJoin

/-- Criteria and the joins that are open, the innermost first. -/
structure Draft where
  criteria : Criteria
  opened : List JoinNode

namespace Draft

/-- The draft of a query over a root entity. -/
def ofRoot (root : Source) : Draft := ⟨.ofRoot root, []⟩

/-- The name that the current scope goes by. -/
def scopeName (d : Draft) : String :=
  match d.opened with
  | [] => d.criteria.root.table
  | n :: _ => n.qualifier

/-- The join that opening one from the current scope starts with. -/
def newJoin (d : Draft) (relation : Relation) (kind : JoinKind) (qualifier : Option String) :
    JoinNode :=
  { relation, qualifier := qualifier.getD relation.name, parent := d.scopeName, kind,
    conditions := [], children := [] }

/-- A change of the criteria themselves, while no join is open. -/
def atRoot (d : Draft) (f : Criteria → Criteria) : Option Draft :=
  if d.opened.isEmpty then some ⟨f d.criteria, []⟩ else none

/-- The draft after a step, if the step belongs to the current scope. -/
def step? (d : Draft) : Step → Option Draft
  | .filter p => d.atRoot (·.filter p)
  | .orderBy keys => d.atRoot (·.orderBy keys)
  | .unique => d.atRoot (·.unique)
  | .limit rowCount => d.atRoot (·.limit rowCount)
  | .skip offset => d.atRoot (·.skip offset)
  | .window offset rowCount => d.atRoot (·.window offset rowCount)
  | .openJoin relation kind qualifier =>
    some { d with opened := d.newJoin relation kind qualifier :: d.opened }
  | .restrict p =>
    match d.opened with
    | [] => none
    | n :: ns => some { d with opened := { n with conditions := n.conditions ++ [p] } :: ns }
  | .closeJoin =>
    match d.opened with
    | [] => none
    | [n] => some ⟨d.criteria.attach n, []⟩
    | n :: m :: ns => some { d with opened := { m with children := m.children ++ [n] } :: ns }

end Draft
end EntityQuery
