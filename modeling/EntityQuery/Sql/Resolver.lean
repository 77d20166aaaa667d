/-
# Resolving paths to qualified columns

A resolver keeps the names in use in one statement and the inner joins that paths have
required so far.  Resolving a path walks its relations from the scope it starts in: a
hop goes by the name of the place before it, two underscores and the name of its
relation, and joins its target under that name unless a path has done so before.

A step that fails leaves what it has added: resolving is a computation on the resolver
whose result may be an error (`Resolving`).
-/

import EntityQuery.Error
import EntityQuery.Sql.Select

namespace EntityQuery

/-- Where a scope lies. -/
inductive ScopeKind
  /-- The root of a query; paths may follow relations. -/
  | root
  /-- A join, whose condition sees no table joined after it. -/
  | join
deriving DecidableEq

/-- What paths start from: a table and the name it goes by. -/
structure Scope where
  kind : ScopeKind
  qualifier : String
  source : Source
deriving DecidableEq

/-- The names in use, and the joins required so far in the order they were first
required. -/
structure Resolver where
  names : List String
  joins : List Join
deriving DecidableEq

/-- The resolver of a new statement. -/
def Resolver.empty : Resolver := ⟨[], []⟩

/-- A computation on a resolver that may fail and then keeps what it has changed. -/
abbrev Resolving := ExceptT QueryError (StateM Resolver)

namespace Resolver

/-- The name that a hop goes by behind the place `parent`. -/
def hopName (parent : String) (hop : Relation) : String := parent ++ "__" ++ hop.name

/-- The inner join of a hop. -/
def hopJoin (parent : String) (hop : Relation) : Join where
  table := hop.target.table
  qualifier := hopName parent hop
  kind := .inner
  condition :=
    .equal ⟨parent, hop.localColumn⟩ ⟨hopName parent hop, hop.remoteColumn⟩

/-- Takes a name into use. -/
def reserve (name : String) : Resolving Unit := do
  let r ← get
  if name ∈ r.names then throw (.duplicateAlias name)
  else set { r with names := name :: r.names }

/-- Joins a hop unless a join goes by its name already. -/
def require (parent : String) (hop : Relation) : Resolving Unit := do
  let r ← get
  if r.joins.any (·.qualifier = hopName parent hop) then return ()
  else
    reserve (hopName parent hop)
    modify fun r => { r with joins := r.joins ++ [hopJoin parent hop] }

/-- Follows a chain of relations: the name that its end goes by, and the source there. -/
def walk (parent : String) (source : Source) : List Relation → Resolving (String × Source)
  | [] => return (parent, source)
  | hop :: hops => do
    require parent hop
    walk (hopName parent hop) hop.target hops

/-- Resolves a path in a scope. -/
def resolve (scope : Scope) (path : Path) : Resolving ColumnRef :=
  match scope.kind, path.hops with
  | .join, hop :: _ => throw (.traversalInJoin scope.qualifier hop.name)
  | _, hops => do
    let (qualifier, source) ← walk scope.qualifier scope.source hops
    if path.column ∈ source.columns then return ⟨qualifier, path.column⟩
    else throw (.unknownAttribute source.table path.toText)

end Resolver

/-- The computation from a resolver: its result, and the resolver after it. -/
def Resolving.runFrom (r : Resolver) (x : Resolving α) : Except QueryError α × Resolver :=
  x.run.run r

end EntityQuery
