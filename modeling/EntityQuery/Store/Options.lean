/-
# Connection options

The database that a store connects to, taken from the environment.
-/

namespace EntityQuery
namespace Store

/-- What a store connects to. -/
structure ConnectOptions where
  /-- A path or a URI. -/
  database : String
deriving DecidableEq

/-- The environment variable that names the database. -/
def ConnectOptions.variableName : String := "SQL_DATABASE"

/-- A database in memory, shared by the connections of a process. -/
def ConnectOptions.standard : ConnectOptions := ⟨"file::memory:?cache=shared"⟩

/-- The options for a value of the environment variable, the standard ones if it is
unset. -/
def ConnectOptions.ofEnvironment : Option String → ConnectOptions
  | some database => ⟨database⟩
  | none => .standard

end Store
end EntityQuery
