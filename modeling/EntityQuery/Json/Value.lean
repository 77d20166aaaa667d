/-
# JSON values

A number is an integer of at most 64 bits or else a double.  The members of an object
are sorted by the bytes of their names, and of equal names the last one given counts
(`Json.insert`).
-/

import EntityQuery.Binary.Format

namespace EntityQuery

/-- A JSON value. -/
inductive Json
  | null
  | bool (value : Bool)
  | integer (value : Int)
  | float (value : Binary.Double)
  | text (value : String)
  | array (items : List Json)
  | object (members : List (String × Json))

namespace Json

/-- Whether a text comes before another by its bytes in UTF-8, which is by its code
points. -/
def precedes (a b : String) : Bool := a < b

/-- Members in order with one more: it takes the place of a member of its name. -/
def insert (name : String) (value : Json) : List (String × Json) → List (String × Json)
  | [] => [(name, value)]
  | m :: ms =>
    if precedes name m.1 then (name, value) :: m :: ms
    else if name = m.1 then (name, value) :: ms
    else m :: insert name value ms

/-- Why a text is not JSON: it ended too early, or a byte cannot stand where it does. -/
inductive Error
  | unexpectedEnd
  | malformed
deriving DecidableEq

end Json
end EntityQuery
