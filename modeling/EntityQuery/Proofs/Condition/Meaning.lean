/-
# Filters keep the meaning of conditions

A condition has a meaning of its own, read off how it is put together: *and*, *or* and
*not* are the connectives on truth values, *all* and *any* those of a list, and a test says
what the valuation says of the column that its path stands for (`Condition.meaning`).
Predicates that are given as they are mean the same by their own shape.

Two rewritings lie between a condition and the filter of a statement: joining splices the
parts of equal connectives, and compiling folds every list from the left.  Neither changes
the truth value, whatever the columns hold and however comparisons treat nulls
(`Predicate.meaning_conj`, `Predicate.exprAt_meaning`, `Clause.filter_meaning`).
-/

import EntityQuery.Proofs.Condition.Leaves
import EntityQuery.Proofs.Condition.Truth
import EntityQuery.Proofs.Predicate.Outcome

namespace EntityQuery

variable {ν : Type}

/-- What a test of a path says; nothing is in an empty set and everything outside of it. -/
def Test.meaning (V : Valuation ν) (columnOf : Path → ColumnRef) (path : Path) :
    Test Path → Truth
  | .isIn [] => .no
  | .notIn [] => .yes
  | t => V.reading (V.value (columnOf path)) (t.map fun other => V.value (columnOf other))

/-- What a comparison says if its operand fits. -/
def Comparison.meaning (V : Valuation ν) (columnOf : Path → ColumnRef) (c : Comparison) :
    Truth :=
  match Test.of? c.operator c.operand with
  | none => .unknown
  | some t => t.meaning V columnOf c.path

namespace Predicate

mutual

/-- What a predicate says. -/
def meaning (V : Valuation ν) (columnOf : Path → ColumnRef) : Predicate → Truth
  | .comparison c => c.meaning V columnOf
  | .and ps => .all (meanings V columnOf ps)
  | .or ps => .any (meanings V columnOf ps)
  | .not p => (meaning V columnOf p).not

/-- What some predicates say. -/
def meanings (V : Valuation ν) (columnOf : Path → ColumnRef) : List Predicate → List Truth
  | [] => []
  | p :: ps => meaning V columnOf p :: meanings V columnOf ps

end

/-- Predicates mean what they mean one by one. -/
theorem meanings_append (V : Valuation ν) (columnOf : Path → ColumnRef)
    (ps qs : List Predicate) :
    meanings V columnOf (ps ++ qs) = meanings V columnOf ps ++ meanings V columnOf qs := by
  induction ps with
  | nil => rfl
  | cons p ps ih => simp only [List.cons_append, meanings, ih]

/-- A predicate says that all its conjuncts hold. -/
theorem all_meanings_conjuncts (V : Valuation ν) (columnOf : Path → ColumnRef)
    (p : Predicate) : .all (meanings V columnOf p.conjuncts) = p.meaning V columnOf := by
  cases p <;> simp [conjuncts, meanings, meaning]

/-- A predicate says that one of its disjuncts holds. -/
theorem any_meanings_disjuncts (V : Valuation ν) (columnOf : Path → ColumnRef)
    (p : Predicate) : .any (meanings V columnOf p.disjuncts) = p.meaning V columnOf := by
  cases p <;> simp [disjuncts, meanings, meaning]

/-- **Splicing keeps the meaning of a conjunction.** -/
theorem meaning_conj (V : Valuation ν) (columnOf : Path → ColumnRef) (p q : Predicate) :
    (p.conj q).meaning V columnOf = (p.meaning V columnOf).and (q.meaning V columnOf) := by
  rw [conj, meaning, meanings_append, Truth.all_append, all_meanings_conjuncts,
    all_meanings_conjuncts]

/-- **Splicing keeps the meaning of a disjunction.** -/
theorem meaning_disj (V : Valuation ν) (columnOf : Path → ColumnRef) (p q : Predicate) :
    (p.disj q).meaning V columnOf = (p.meaning V columnOf).or (q.meaning V columnOf) := by
  rw [disj, meaning, meanings_append, Truth.any_append, any_meanings_disjuncts,
    any_meanings_disjuncts]

end Predicate

namespace Condition

mutual

/-- What a condition says. -/
def meaning (V : Valuation ν) (columnOf : Path → ColumnRef) : Condition → Truth
  | .test path t => t.meaning V columnOf path
  | .and a b => (meaning V columnOf a).and (meaning V columnOf b)
  | .or a b => (meaning V columnOf a).or (meaning V columnOf b)
  | .not x => (meaning V columnOf x).not
  | .all xs => .all (meanings V columnOf xs)
  | .any xs => .any (meanings V columnOf xs)

/-- What some conditions say. -/
def meanings (V : Valuation ν) (columnOf : Path → ColumnRef) : List Condition → List Truth
  | [] => []
  | x :: xs => meaning V columnOf x :: meanings V columnOf xs

end

mutual

/-- Putting a predicate together keeps the meaning. -/
theorem meaning_of_predicate (V : Valuation ν) (columnOf : Path → ColumnRef) :
    ∀ {x : Condition} {p : Predicate}, x.predicate = .ok p →
      p.meaning V columnOf = x.meaning V columnOf
  | .test path t, _, h => by
    obtain rfl := predicate_test_eq_ok.1 h
    simp [Predicate.meaning, Comparison.meaning, Comparison.ofTest, meaning]
  | .and _ _, _, h => by
    obtain ⟨q, r, hq, hr, rfl⟩ := predicate_and_eq_ok.1 h
    rw [Predicate.meaning_conj, meaning_of_predicate V columnOf hq,
      meaning_of_predicate V columnOf hr, meaning]
  | .or _ _, _, h => by
    obtain ⟨q, r, hq, hr, rfl⟩ := predicate_or_eq_ok.1 h
    rw [Predicate.meaning_disj, meaning_of_predicate V columnOf hq,
      meaning_of_predicate V columnOf hr, meaning]
  | .not _, _, h => by
    obtain ⟨q, hq, rfl⟩ := predicate_not_eq_ok.1 h
    rw [Predicate.meaning, meaning_of_predicate V columnOf hq, meaning]
  | .all _, _, h => by
    obtain ⟨ps, hps, -, rfl⟩ := predicate_all_eq_ok.1 h
    rw [Predicate.meaning, meanings_of_predicates V columnOf hps, meaning]
  | .any _, _, h => by
    obtain ⟨ps, hps, -, rfl⟩ := predicate_any_eq_ok.1 h
    rw [Predicate.meaning, meanings_of_predicates V columnOf hps, meaning]

/-- Putting conditions together keeps what each of them means. -/
theorem meanings_of_predicates (V : Valuation ν) (columnOf : Path → ColumnRef) :
    ∀ {xs : List Condition} {ps : List Predicate}, predicates xs = .ok ps →
      Predicate.meanings V columnOf ps = meanings V columnOf xs
  | [], _, h => by
    obtain rfl := predicates_nil_eq_ok.1 h
    rfl
  | _ :: _, _, h => by
    obtain ⟨q, qs, hq, hqs, rfl⟩ := predicates_cons_eq_ok.1 h
    rw [Predicate.meanings, meaning_of_predicate V columnOf hq,
      meanings_of_predicates V columnOf hqs, meanings]

end

end Condition

/-! ### Compiling -/

/-- A test whose path stands for a column becomes an expression of its own meaning. -/
theorem Test.traverse_meaning {column : Path → Except QueryError ColumnRef}
    {columnOf : Path → ColumnRef} {path : Path} {t : Test Path}
    (h : ∀ q ∈ (Comparison.ofTest path t).paths, column q = .ok (columnOf q)) :
    ∃ u, t.traverse column = .ok u ∧ ∀ {ν : Type} (V : Valuation ν),
      (u.expr (columnOf path)).eval V = t.meaning V columnOf path := by
  cases t with
  | compareWith c other =>
    have ho : column other = .ok (columnOf other) := h other (by
      simp [Comparison.ofTest, Comparison.paths, Test.operand])
    exact ⟨.compareWith c (columnOf other), by rw [traverse, ho]; rfl, fun V => rfl⟩
  | isIn vs => exact ⟨.isIn vs, rfl, fun V => by cases vs <;> rfl⟩
  | notIn vs => exact ⟨.notIn vs, rfl, fun V => by cases vs <;> rfl⟩
  | _ => exact ⟨_, rfl, fun V => rfl⟩

/-- A comparison that fits becomes an expression of its own meaning. -/
theorem Comparison.exprAt_meaning {column : Path → Except QueryError ColumnRef}
    {columnOf : Path → ColumnRef} {c : Comparison} (hfit : c.Fits)
    (h : ∀ q ∈ c.paths, column q = .ok (columnOf q)) :
    ∃ e, c.exprAt column = .ok e ∧ ∀ {ν : Type} (V : Valuation ν),
      e.eval V = c.meaning V columnOf := by
  obtain ⟨t, ht⟩ := hfit
  have hc : column c.path = .ok (columnOf c.path) := h c.path (by
    unfold paths; split <;> simp)
  have hof : Test.of? c.operator c.operand = some t := by
    rw [ht]
    exact Test.of?_operator_operand t
  obtain ⟨u, hu, hV⟩ := Test.traverse_meaning (ht ▸ h)
  refine ⟨u.expr (columnOf c.path), ?_, fun V => ?_⟩
  · rw [exprAt, hc]
    simp only [bind, Except.bind, hof, hu]
    rfl
  · rw [hV, meaning, hof]

namespace Predicate

mutual

/-- **A predicate becomes an expression of its own meaning** if its comparisons fit and its
paths stand for columns. -/
theorem exprAt_meaning {column : Path → Except QueryError ColumnRef}
    {columnOf : Path → ColumnRef} :
    ∀ (p : Predicate), (∀ c ∈ p.leaves, c.Fits) →
      (∀ c ∈ p.leaves, ∀ q ∈ c.paths, column q = .ok (columnOf q)) →
      ∃ e, p.exprAt column = .ok e ∧ ∀ {ν : Type} (V : Valuation ν),
        e.eval V = p.meaning V columnOf
  | .comparison c, hfit, h =>
    c.exprAt_meaning (hfit c (List.mem_singleton_self c)) (h c (List.mem_singleton_self c))
  | .and ps, hfit, h => by
    obtain ⟨es, hes, hV⟩ := exprsAt_meaning ps hfit h
    refine ⟨.all es, by rw [exprAt, hes]; rfl, fun V => ?_⟩
    rw [Expr.eval_all, hV, meaning]
  | .or ps, hfit, h => by
    obtain ⟨es, hes, hV⟩ := exprsAt_meaning ps hfit h
    refine ⟨.any es, by rw [exprAt, hes]; rfl, fun V => ?_⟩
    rw [Expr.eval_any, hV, meaning]
  | .not p, hfit, h => by
    obtain ⟨e, he, hV⟩ := exprAt_meaning p hfit h
    refine ⟨.not e, by rw [exprAt, he]; rfl, fun V => ?_⟩
    rw [Expr.eval, hV, meaning]

/-- The expressions of some predicates mean what the predicates do, if their paths resolve. -/
theorem exprsAt_meaning {column : Path → Except QueryError ColumnRef}
    {columnOf : Path → ColumnRef} :
    ∀ (ps : List Predicate), (∀ c ∈ leavesOf ps, c.Fits) →
      (∀ c ∈ leavesOf ps, ∀ q ∈ c.paths, column q = .ok (columnOf q)) →
      ∃ es, exprsAt column ps = .ok es ∧ ∀ {ν : Type} (V : Valuation ν),
        es.map (Expr.eval V) = meanings V columnOf ps
  | [], _, _ => ⟨[], rfl, fun V => rfl⟩
  | p :: ps, hfit, h => by
    rw [leavesOf] at hfit h
    obtain ⟨e, he, hV⟩ := exprAt_meaning p (fun c hc => hfit c (List.mem_append_left _ hc))
      fun c hc => h c (List.mem_append_left _ hc)
    obtain ⟨es, hes, hVs⟩ := exprsAt_meaning ps
      (fun c hc => hfit c (List.mem_append_right _ hc))
      fun c hc => h c (List.mem_append_right _ hc)
    refine ⟨e :: es, by rw [exprsAt, he, hes]; rfl, fun V => ?_⟩
    rw [List.map_cons, hV, hVs, meanings]

end

end Predicate

/-- An entry of a filter: a condition, or a predicate that is given as it is. -/
inductive Clause
  | condition (x : Condition)
  | predicate (p : Predicate)

namespace Clause

/-- The predicate of an entry. -/
def toPredicate : Clause → Except QueryError Predicate
  | condition x => x.predicate
  | predicate p => .ok p

/-- The comparisons of an entry. -/
def leaves : Clause → List Comparison
  | condition x => x.leaves
  | predicate p => p.leaves

/-- What an entry says. -/
def meaning (V : Valuation ν) (columnOf : Path → ColumnRef) : Clause → Truth
  | condition x => x.meaning V columnOf
  | predicate p => p.meaning V columnOf

/-- A clause has the leaves of what it puts together. -/
theorem leaves_of_toPredicate {x : Clause} {p : Predicate} (h : x.toPredicate = .ok p) :
    p.leaves = x.leaves := by
  cases x with
  | condition x => exact Condition.leaves_of_predicate h
  | predicate q =>
    obtain rfl : q = p := by simpa [toPredicate] using h
    rfl

/-- A clause means what it puts together. -/
theorem meaning_of_toPredicate {x : Clause} {p : Predicate} (h : x.toPredicate = .ok p)
    (V : Valuation ν) (columnOf : Path → ColumnRef) :
    p.meaning V columnOf = x.meaning V columnOf := by
  cases x with
  | condition x => exact Condition.meaning_of_predicate V columnOf h
  | predicate q =>
    obtain rfl : q = p := by simpa [toPredicate] using h
    rfl

/-- The predicates of some entries have their leaves and meanings. -/
theorem mapM_toPredicate {xs : List Clause} {ps : List Predicate}
    (h : xs.mapM toPredicate = .ok ps) :
    Predicate.leavesOf ps = xs.flatMap leaves ∧ (ps = [] ↔ xs = []) ∧
      ∀ {ν : Type} (V : Valuation ν) (columnOf : Path → ColumnRef),
        Predicate.meanings V columnOf ps = xs.map (meaning V columnOf) := by
  induction xs generalizing ps with
  | nil =>
    obtain rfl : [] = ps := by simpa [pure, Except.pure] using h
    exact ⟨rfl, by simp, fun _ _ => rfl⟩
  | cons x xs ih =>
    rw [List.mapM_cons] at h
    obtain ⟨p, hp, h⟩ := Except.bind_eq_ok_iff.1 h
    obtain ⟨qs, hqs, h⟩ := Except.bind_eq_ok_iff.1 h
    obtain rfl : p :: qs = ps := by simpa [pure, Except.pure] using h
    obtain ⟨hleaves, -, hmeaning⟩ := ih hqs
    refine ⟨?_, by simp, fun V columnOf => ?_⟩
    · rw [Predicate.leavesOf, leaves_of_toPredicate hp, hleaves, List.flatMap_cons]
    · rw [Predicate.meanings, meaning_of_toPredicate hp, hmeaning, List.map_cons]

/-- **Filters keep the meaning of their entries.**  Where every path of the entries stands
for a column and the predicates among them fit, the entries make a filter, none if there is
no entry, and its truth value is the conjunction of what the entries say, whatever the
columns hold and however comparisons are read. -/
theorem filter_meaning {scope : Scope} {r : Resolver} {columnOf : Path → ColumnRef}
    {xs : List Clause} {ps : List Predicate} (hps : xs.mapM toPredicate = .ok ps)
    (hfit : ∀ p, predicate p ∈ xs → ∀ c ∈ p.leaves, c.Fits)
    (hpaths : ∀ x ∈ xs, ∀ c ∈ x.leaves, ∀ q ∈ c.paths,
      ((Resolver.resolve scope q).runFrom r).1 = .ok (columnOf q)) :
    ∃ e, ((Predicate.filter scope ps).runFrom r).1 = .ok e ∧ (e = none ↔ xs = []) ∧
      ∀ {ν : Type} (V : Valuation ν), Expr.evalFilter V e = .all (xs.map (meaning V columnOf)) := by
  obtain ⟨hleaves, hnil, hmeaning⟩ := mapM_toPredicate hps
  have hfits : ∀ c ∈ Predicate.leavesOf ps, c.Fits := by
    intro c hc
    rw [hleaves, List.mem_flatMap] at hc
    obtain ⟨x, hx, hc⟩ := hc
    cases x with
    | condition x => exact Condition.fits_of_mem_leaves x hc
    | predicate p => exact hfit p hx c hc
  have hcolumns : ∀ c ∈ Predicate.leavesOf ps, ∀ q ∈ c.paths,
      scope.column r.isOpen q = .ok (columnOf q) := by
    intro c hc q hq
    rw [hleaves, List.mem_flatMap] at hc
    obtain ⟨x, hx, hc⟩ := hc
    rw [← (Resolving.Decided.resolve scope q).result r]
    exact hpaths x hx c hc q hq
  -- no resolver is left: the expressions are those of the columns that the paths stand for
  obtain ⟨es, hes, hV⟩ := Predicate.exprsAt_meaning ps hfits hcolumns
  refine ⟨if es.isEmpty then none else some (.all es), ?_, ?_, fun V => ?_⟩
  · rw [(Predicate.decided_filter scope ps).result, Predicate.filterAt, hes]
    rfl
  · rw [← hnil, ← Predicate.exprsAt_eq_nil hes]
    cases es <;> simp
  · rw [← hmeaning, ← hV]
    cases es with
    | nil => rfl
    | cons e es => exact Expr.eval_all V (e :: es)

/-- The hypotheses of `filter_meaning` are satisfiable: two entries over dogs, the first
reaching through a relation on both sides of a spliced disjunction, the second empty. -/
theorem filter_meaning_dogs :
    let name : Path := .ofColumn "name"
    let zip : Path := ⟨[⟨"home", "home_id", "id", ⟨"homes", ["id", "zip"]⟩⟩], "zip"⟩
    let x : Condition := .or (.or (.test zip (.like "1%")) (.test name (.isIn [])))
      (.not (.all [.test name (.compareWith .ne zip), .test name .isNull]))
    let scope : Scope := ⟨.root, "dogs", ⟨"dogs", ["id", "name"]⟩⟩
    let columnOf (q : Path) : ColumnRef := ⟨Resolver.endName "dogs" q.hops, q.column⟩
    ∃ ps e, [condition x, predicate (.or [])].mapM toPredicate = .ok ps ∧
      ((Predicate.filter scope ps).runFrom ⟨["dogs"], []⟩).1 = .ok e ∧ e ≠ none ∧
      ∀ {ν : Type} (V : Valuation ν),
        Expr.evalFilter V e = (x.meaning V columnOf).and .no := by
  intro name zip x scope columnOf
  have hall : ∀ q ∈ [name, zip],
      ((Resolver.resolve scope q).runFrom ⟨["dogs"], []⟩).1 = .ok (columnOf q) := by
    decide
  have hleaves : ∀ c ∈ (condition x).leaves, ∀ q ∈ c.paths, q ∈ [name, zip] := by decide
  have hpaths : ∀ y ∈ [condition x, predicate (.or [])], ∀ c ∈ y.leaves, ∀ q ∈ c.paths,
      ((Resolver.resolve scope q).runFrom ⟨["dogs"], []⟩).1 = .ok (columnOf q) := by
    intro y hy c hc q hq
    refine hall q ?_
    rcases List.mem_pair.1 hy with rfl | rfl
    · exact hleaves c hc q hq
    · simp [leaves, Predicate.leaves, Predicate.leavesOf] at hc
  have hfit : ∀ p, predicate p ∈ [condition x, predicate (.or [])] →
      ∀ c ∈ p.leaves, c.Fits := by
    intro p hp c hc
    obtain rfl : p = .or [] := by simpa using hp
    simp [Predicate.leaves, Predicate.leavesOf] at hc
  obtain ⟨e, he, hnone, hV⟩ := filter_meaning rfl hfit hpaths
  exact ⟨_, e, rfl, he, by simp [hnone], fun V => (hV V).trans (by
    simp [meaning, Predicate.meaning, Predicate.meanings])⟩

end Clause
end EntityQuery
