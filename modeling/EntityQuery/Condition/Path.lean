/-
# Relations and attribute paths

A relation leads from the entity that owns it to a target entity: a row there belongs to
a row here if the remote column equals the local one.  A path names a column of the
entity at the end of a chain of relations, the outermost first; with an empty chain it
is a column of the entity itself.
-/

import EntityQuery.Entity.Basic
import EntityQuery.Text.Dump

namespace EntityQuery

/-- A named association of one entity with another, joined on
`local column = remote column`. -/
structure Relation where
  name : String
  localColumn : String
  remoteColumn : String
  target : Source
deriving DecidableEq

/-- A column at the end of a chain of relations. -/
structure Path where
  hops : List Relation
  column : String
deriving DecidableEq

namespace Path

/-- The path of a column of the entity itself. -/
def ofColumn (column : String) : Path := ⟨[], column⟩

/-- Whether a path follows any relation. -/
def isNested (p : Path) : Bool := !p.hops.isEmpty

/-- The names of the relations and of the column, with dots between them. -/
def toText (p : Path) : String :=
  p.hops.foldr (fun hop rest => hop.name ++ "." ++ rest) p.column

end Path

/-- The path that first follows a relation and then a path of its target. -/
def Relation.reach (r : Relation) (p : Path) : Path := ⟨r :: p.hops, p.column⟩

/-- A path that is reached through a relation starts with it. -/
@[simp]
theorem Relation.hops_reach (r : Relation) (p : Path) : (r.reach p).hops = r :: p.hops := rfl

/-- A path that is reached through a relation is written with the relation's name in front. -/
theorem Path.toText_reach (r : Relation) (p : Path) :
    (r.reach p).toText = r.name ++ "." ++ p.toText := rfl

/-- The dump of a relation as the owning entity declares it. -/
def Relation.dump (r : Relation) : Dump :=
  .record "Relation" [
    .field "name" (.text r.name),
    .field "local_column" (.text r.localColumn),
    .field "remote_column" (.text r.remoteColumn)]

/-- The dump of a relation as one hop of a path. -/
def Relation.hopDump (r : Relation) : Dump :=
  .record "Hop" [
    .field "name" (.text r.name),
    .field "table" (.text r.target.table),
    .field "local_column" (.text r.localColumn),
    .field "remote_column" (.text r.remoteColumn),
    .field "columns" (.list (r.target.columns.map .text))]

/-- The dump of a path. -/
def Path.dump (p : Path) : Dump :=
  .record "AttributePath" [
    .field "hops" (.list (p.hops.map Relation.hopDump)),
    .field "column" (.text p.column)]

/-- The dump of the attribute that a path stands for. -/
def Path.attributeDump (p : Path) : Dump := .tuple "Attribute" [p.dump]

end EntityQuery
