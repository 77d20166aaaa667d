/-
# Conditions

A condition says how a predicate is put together: from tests of attributes, joined two
at a time with *and* and *or*, negated, or gathered with *all* and *any*.
`Condition.predicate` carries this out.  Joining splices: a conjunction joined with a
conjunction is one conjunction of all their parts, in order, and likewise for
disjunctions.  Gathering nests its parts as they are, and refuses to gather nothing.
-/

import EntityQuery.Condition.Predicate
import EntityQuery.Error

namespace EntityQuery

namespace Predicate

/-- The parts of a predicate as a conjunction. -/
def conjuncts : Predicate → List Predicate
  | .and ps => ps
  | p => [p]

/-- The parts of a predicate as a disjunction. -/
def disjuncts : Predicate → List Predicate
  | .or ps => ps
  | p => [p]

/-- Two predicates as one conjunction. -/
def conj (p q : Predicate) : Predicate := .and (p.conjuncts ++ q.conjuncts)

/-- Two predicates as one disjunction. -/
def disj (p q : Predicate) : Predicate := .or (p.disjuncts ++ q.disjuncts)

/-- The conjunction of at least one predicate. -/
def all : List Predicate → Except QueryError Predicate
  | [] => .error (.emptyCombinator .all)
  | ps => .ok (.and ps)

/-- The disjunction of at least one predicate. -/
def any : List Predicate → Except QueryError Predicate
  | [] => .error (.emptyCombinator .any)
  | ps => .ok (.or ps)

/-- The conjuncts of a conjunction are those of both its parts. -/
@[simp]
theorem conjuncts_conj (p q : Predicate) :
    (p.conj q).conjuncts = p.conjuncts ++ q.conjuncts := rfl

/-- The disjuncts of a disjunction are those of both its parts. -/
@[simp]
theorem disjuncts_disj (p q : Predicate) :
    (p.disj q).disjuncts = p.disjuncts ++ q.disjuncts := rfl

/-- Joining conjunctions does not depend on the grouping. -/
theorem conj_assoc (p q r : Predicate) : (p.conj q).conj r = p.conj (q.conj r) := by
  simp only [conj, conjuncts, List.append_assoc]

/-- Joining disjunctions does not depend on the grouping. -/
theorem disj_assoc (p q r : Predicate) : (p.disj q).disj r = p.disj (q.disj r) := by
  simp only [disj, disjuncts, List.append_assoc]

end Predicate

/-- How a predicate is put together. -/
inductive Condition
  | test (path : Path) (t : Test Path)
  | and (a b : Condition)
  | or (a b : Condition)
  | not (x : Condition)
  | all (xs : List Condition)
  | any (xs : List Condition)

namespace Condition

mutual

/-- The predicate that a condition puts together.  Parts are built from left to right,
and the first that fails is the error. -/
def predicate : Condition → Except QueryError Predicate
  | .test path t => .ok (.comparison (.ofTest path t))
  | .and a b => do
    let p ← predicate a
    let q ← predicate b
    return p.conj q
  | .or a b => do
    let p ← predicate a
    let q ← predicate b
    return p.disj q
  | .not x => do
    let p ← predicate x
    return .not p
  | .all xs => do
    let ps ← predicates xs
    Predicate.all ps
  | .any xs => do
    let ps ← predicates xs
    Predicate.any ps

/-- The predicates of some conditions. -/
def predicates : List Condition → Except QueryError (List Predicate)
  | [] => .ok []
  | x :: xs => do
    let p ← predicate x
    let ps ← predicates xs
    return p :: ps

end

end Condition
end EntityQuery
