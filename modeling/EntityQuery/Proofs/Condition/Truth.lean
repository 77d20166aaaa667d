/-
# Three truth values

A store evaluates a filter over three truth values, since a comparison with a null is
neither true nor false.  The connectives are Kleene's: *and* is the smaller of two values,
*or* the larger, where `no < unknown < yes`.

An expression has a truth value once the columns have values and every comparison a
reading (`Expr.eval`).  Folding a list of expressions from the left gives the connective of
them all (`Expr.eval_all`, `Expr.eval_any`), and its constant for an empty list.
-/

import EntityQuery.Sql.Expr

namespace EntityQuery

/-- A truth value, where a comparison with a null may be neither true nor false. -/
inductive Truth
  | no | unknown | yes
deriving DecidableEq

namespace Truth

/-- The truth value of a boolean. -/
def ofBool : Bool → Truth
  | false => no
  | true => yes

/-- The smaller of two truth values. -/
def and : Truth → Truth → Truth
  | no, _ => no
  | _, no => no
  | unknown, _ => unknown
  | _, unknown => unknown
  | yes, yes => yes

/-- The larger of two truth values. -/
def or : Truth → Truth → Truth
  | yes, _ => yes
  | _, yes => yes
  | unknown, _ => unknown
  | _, unknown => unknown
  | no, no => no

/-- The opposite truth value. -/
def not : Truth → Truth
  | no => yes
  | unknown => unknown
  | yes => no

/-- The grouping of a conjunction is no matter. -/
theorem and_assoc (a b c : Truth) : (a.and b).and c = a.and (b.and c) := by
  cases a <;> cases b <;> cases c <;> rfl

/-- The grouping of a disjunction is no matter. -/
theorem or_assoc (a b c : Truth) : (a.or b).or c = a.or (b.or c) := by
  cases a <;> cases b <;> cases c <;> rfl

/-- What is true adds nothing to a conjunction. -/
@[simp]
theorem yes_and (a : Truth) : yes.and a = a := by cases a <;> rfl

/-- What is true adds nothing behind a conjunction. -/
@[simp]
theorem and_yes (a : Truth) : a.and yes = a := by cases a <;> rfl

/-- What is false adds nothing to a disjunction. -/
@[simp]
theorem no_or (a : Truth) : no.or a = a := by cases a <;> rfl

/-- What is false adds nothing behind a disjunction. -/
@[simp]
theorem or_no (a : Truth) : a.or no = a := by cases a <;> rfl

/-- The conjunction of some truth values, true of none. -/
def all (as : List Truth) : Truth := as.foldr and yes

/-- The disjunction of some truth values, false of none. -/
def any (as : List Truth) : Truth := as.foldr or no

@[simp]
theorem all_nil : all [] = yes := rfl

@[simp]
theorem any_nil : any [] = no := rfl

@[simp]
theorem all_cons (a : Truth) (as : List Truth) : all (a :: as) = a.and (all as) := rfl

@[simp]
theorem any_cons (a : Truth) (as : List Truth) : any (a :: as) = a.or (any as) := rfl

/-- All of two lists hold if all of each do. -/
theorem all_append (as bs : List Truth) : all (as ++ bs) = (all as).and (all bs) := by
  induction as with
  | nil => rw [List.nil_append, all_nil, yes_and]
  | cons a as ih => rw [List.cons_append, all_cons, all_cons, ih, and_assoc]

/-- One of two lists holds if one of either does. -/
theorem any_append (as bs : List Truth) : any (as ++ bs) = (any as).or (any bs) := by
  induction as with
  | nil => rw [List.nil_append, any_nil, no_or]
  | cons a as ih => rw [List.cons_append, any_cons, any_cons, ih, or_assoc]

end Truth

/-- A test with its other attribute replaced. -/
def Test.map {α β : Type} (f : α → β) : Test α → Test β
  | .isNull => .isNull
  | .isNotNull => .isNotNull
  | .compare c v => .compare c v
  | .compareWith c other => .compareWith c (f other)
  | .isIn vs => .isIn vs
  | .notIn vs => .notIn vs
  | .between low high => .between low high
  | .notBetween low high => .notBetween low high
  | .like pattern => .like pattern
  | .notLike pattern => .notLike pattern

/-- What the columns of one row hold and what every comparison of them says; `none` is
null. -/
structure Valuation (ν : Type) where
  value : ColumnRef → Option ν
  /-- The truth value of a test of a value, its other attribute read as a value too. -/
  reading : Option ν → Test (Option ν) → Truth

namespace Expr

/-- The truth value of an expression. -/
def eval {ν : Type} (V : Valuation ν) : Expr → Truth
  | .constant b => .ofBool b
  | .test c t => V.reading (V.value c) (t.map V.value)
  | .and l r => (eval V l).and (eval V r)
  | .or l r => (eval V l).or (eval V r)
  | .not e => (eval V e).not

/-- The truth value of a filter; no filter keeps every row. -/
def evalFilter {ν : Type} (V : Valuation ν) : Option Expr → Truth
  | none => .yes
  | some e => e.eval V

variable {ν : Type} (V : Valuation ν)

/-- A conjunction grouped from the left is the conjunction of all its parts. -/
theorem eval_foldl_and (e : Expr) (es : List Expr) :
    (es.foldl .and e).eval V = (e.eval V).and (.all (es.map (eval V))) := by
  induction es generalizing e with
  | nil => rw [List.foldl_nil, List.map_nil, Truth.all_nil, Truth.and_yes]
  | cons f es ih => rw [List.foldl_cons, ih, eval, List.map_cons, Truth.all_cons, Truth.and_assoc]

/-- A disjunction grouped from the left is the disjunction of all its parts. -/
theorem eval_foldl_or (e : Expr) (es : List Expr) :
    (es.foldl .or e).eval V = (e.eval V).or (.any (es.map (eval V))) := by
  induction es generalizing e with
  | nil => rw [List.foldl_nil, List.map_nil, Truth.any_nil, Truth.or_no]
  | cons f es ih => rw [List.foldl_cons, ih, eval, List.map_cons, Truth.any_cons, Truth.or_assoc]

/-- **Folding conjoins:** the value of the fold is the conjunction of the values. -/
theorem eval_all (es : List Expr) : (all es).eval V = .all (es.map (eval V)) := by
  cases es with
  | nil => rfl
  | cons e es => exact eval_foldl_and V e es

/-- **Folding disjoins:** the value of the fold is the disjunction of the values. -/
theorem eval_any (es : List Expr) : (any es).eval V = .any (es.map (eval V)) := by
  cases es with
  | nil => rfl
  | cons e es => exact eval_foldl_or V e es

end Expr
end EntityQuery
