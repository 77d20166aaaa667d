/-
# Comparisons

A comparison applies one of fourteen operators to an attribute and an operand.  The two
are chosen independently (`Operator`, `Operand`), so they may not fit.  A `Test` is a
comparison whose operand fits: no operand for the null tests, a list for membership, a
range for the interval tests, a pattern that is not null for the text tests, and a
literal or another attribute for the six relations.  `Test.of?` recognises the fitting
pairs, and `Test.of?_operator_operand` says that it gives back every test from its own
operator and operand.
-/

import EntityQuery.Condition.Path
import EntityQuery.Value.Literal

namespace EntityQuery

/-- The relations between two values. -/
inductive Comparator
  | eq | ne | gt | ge | lt | le
deriving DecidableEq

/-- The operators of comparisons. -/
inductive Operator
  | compare (c : Comparator)
  | like | notLike
  | isIn | notIn
  | isNull | isNotNull
  | between | notBetween
deriving DecidableEq

/-- The right-hand side of a comparison. -/
inductive Operand
  | none
  | value (v : Literal)
  | values (vs : List Literal)
  | range (low high : Literal)
  | path (p : Path)
deriving DecidableEq

/-- A comparison of an attribute with an operand that fits its operator; other
attributes are given as `ρ`. -/
inductive Test (ρ : Type)
  | isNull
  | isNotNull
  | compare (c : Comparator) (v : Literal)
  | compareWith (c : Comparator) (other : ρ)
  | isIn (vs : List Literal)
  | notIn (vs : List Literal)
  | between (low high : Literal)
  | notBetween (low high : Literal)
  | like (pattern : String)
  | notLike (pattern : String)
deriving DecidableEq

/-- How a comparator is written. -/
def Comparator.symbol : Comparator → String
  | eq => "="
  | ne => "<>"
  | gt => ">"
  | ge => ">="
  | lt => "<"
  | le => "<="

namespace Operator

/-- The words of an operator. -/
def words : Operator → List String
  | compare c => [c.symbol]
  | like => ["LIKE"]
  | notLike => ["NOT", "LIKE"]
  | isIn => ["IN"]
  | notIn => ["NOT", "IN"]
  | isNull => ["IS", "NULL"]
  | isNotNull => ["IS", "NOT", "NULL"]
  | between => ["BETWEEN"]
  | notBetween => ["NOT", "BETWEEN"]

/-- The words of an operator with blanks between them. -/
def toText (o : Operator) : String := " ".intercalate o.words

/-- The name of an operator in dumps and messages. -/
def name : Operator → String
  | compare .eq => "Eq"
  | compare .ne => "Ne"
  | compare .gt => "Gt"
  | compare .ge => "Gte"
  | compare .lt => "Lt"
  | compare .le => "Lte"
  | like => "Like"
  | notLike => "NotLike"
  | isIn => "In"
  | notIn => "NotIn"
  | isNull => "IsNull"
  | isNotNull => "IsNotNull"
  | between => "Between"
  | notBetween => "NotBetween"

end Operator

namespace Test

/-- The operator of a test. -/
def operator : Test ρ → Operator
  | isNull => .isNull
  | isNotNull => .isNotNull
  | compare c _ => .compare c
  | compareWith c _ => .compare c
  | isIn _ => .isIn
  | notIn _ => .notIn
  | between .. => .between
  | notBetween .. => .notBetween
  | like _ => .like
  | notLike _ => .notLike

/-- The operand of a test. -/
def operand : Test Path → Operand
  | isNull => .none
  | isNotNull => .none
  | compare _ v => .value v
  | compareWith _ p => .path p
  | isIn vs => .values vs
  | notIn vs => .values vs
  | between low high => .range low high
  | notBetween low high => .range low high
  | like pattern => .value (.text (some pattern))
  | notLike pattern => .value (.text (some pattern))

/-- The test of an operator and an operand, if they fit. -/
def of? : Operator → Operand → Option (Test Path)
  | .isNull, .none => some isNull
  | .isNotNull, .none => some isNotNull
  | .compare c, .value v => some (compare c v)
  | .compare c, .path p => some (compareWith c p)
  | .isIn, .values vs => some (isIn vs)
  | .notIn, .values vs => some (notIn vs)
  | .between, .range low high => some (between low high)
  | .notBetween, .range low high => some (notBetween low high)
  | .like, .value (.text (some pattern)) => some (like pattern)
  | .notLike, .value (.text (some pattern)) => some (notLike pattern)
  | _, _ => none

/-- **A test is recognised from its operator and operand.** -/
@[simp]
theorem of?_operator_operand (t : Test Path) : of? t.operator t.operand = some t := by
  cases t <;> rfl

/-- What is recognised has the given operator and operand. -/
theorem of?_eq_some {o : Operator} {x : Operand} {t : Test Path} (h : of? o x = some t) :
    t.operator = o ∧ t.operand = x := by
  unfold of? at h
  split at h <;> cases h <;> exact ⟨rfl, rfl⟩

end Test

/-- The dump of an operand. -/
def Operand.dump : Operand → Dump
  | none => .name "None"
  | value v => .tuple "Value" [v.dump]
  | values vs => .tuple "Values" [.list (vs.map Literal.dump)]
  | range low high => .tuple "Range" [low.dump, high.dump]
  | path p => .tuple "Attribute" [p.dump]

end EntityQuery
