/-
# Running queries

A runner renders a compiled query with its own backend, fetches the rows and reads
those that are not skipped as results.  Fetching is an action of some monad `m`, so what
a store does and remembers is the store's own affair; it is reached at most once, and
only with a query that has been rendered.

Whatever goes wrong in a run is an error of one type (`AnyError`).  The errors of queries
and of reading columns are put into it, and those of queries are found again in it.  A
store, and a result type with a reading of its own, may fail with any error of the type,
also with one of queries.
-/

import EntityQuery.Criteria.Compile

namespace EntityQuery

/-- A type of errors that those of queries and of reading columns are part of.  The errors
of queries are recognised in it, and reading columns has none of them. -/
class AnyError (ε : Type) where
  ofQuery : QueryError → ε
  ofRead : ReadError → ε
  /-- The error of a query that an error is, if it is one. -/
  query? : ε → Option QueryError
  query?_ofQuery (e : QueryError) : query? (ofQuery e) = some e
  query?_ofRead (e : ReadError) : query? (ofRead e) = none

/-- The errors of queries, of reading columns, and `ε` beside them. -/
inductive RunError (ε : Type)
  | query (error : QueryError)
  | row (error : ReadError)
  | store (error : ε)

instance {ε : Type} : AnyError (RunError ε) where
  ofQuery := .query
  ofRead := .row
  query?
    | .query e => some e
    | _ => none
  query?_ofQuery _ := rfl
  query?_ofRead _ := rfl

/-- A result type of queries: the columns it needs, and how it is read from a row. -/
structure Shape (ε α : Type) where
  columns : List String
  read : Row → Except ε α

/-- An entity as a result type. -/
def Entity.shape {ε : Type} [AnyError ε] (e : Entity) : Shape ε Record where
  columns := e.projection
  read row := (e.read row).mapError AnyError.ofRead

/-- A way to run queries. -/
structure Runner (m : Type → Type) (ε : Type) where
  backend : Backend
  fetch : Query → m (Except ε (List Row))

namespace Runner

variable {m : Type → Type} [Monad m] {ε α : Type} [AnyError ε]

/-- The results of a compiled query. -/
def list (r : Runner m ε) (shape : Shape ε α) (c : Compiled) : m (Except ε (List α)) :=
  match c.query r.backend with
  | .error e => pure (.error (AnyError.ofQuery e))
  | .ok query => do
    match ← r.fetch query with
    | .error e => return .error e
    | .ok rows => return (rows.drop c.pendingOffset.toNat).mapM shape.read

/-- The only one of some results. -/
def only : List α → Except ε α
  | [] => .error (AnyError.ofQuery .noResult)
  | [a] => .ok a
  | as => .error (AnyError.ofQuery (.nonUniqueResult as.length))

/-- The only result of a compiled query. -/
def single (r : Runner m ε) (shape : Shape ε α) (c : Compiled) : m (Except ε α) := do
  match ← r.list shape c with
  | .error e => return .error e
  | .ok as => return only as

end Runner

namespace Criteria

variable {m : Type → Type} [Monad m] {ε α : Type} [AnyError ε]

/-- Compiles criteria for a result type and gives their results. -/
def list (q : Criteria) (shape : Shape ε α) (r : Runner m ε) : m (Except ε (List α)) :=
  match q.compile shape.columns with
  | .error e => pure (.error (AnyError.ofQuery e))
  | .ok c => r.list shape c

/-- Compiles criteria for a result type and gives their only result. -/
def single (q : Criteria) (shape : Shape ε α) (r : Runner m ε) : m (Except ε α) :=
  match q.compile shape.columns with
  | .error e => pure (.error (AnyError.ofQuery e))
  | .ok c => r.single shape c

end Criteria
end EntityQuery
