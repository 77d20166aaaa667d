/-
# The columns of an expression

The expression of a predicate reads only columns that the paths of the predicate stand for
(`Predicate.columns_of_exprsAt`), and there is one only if all of the paths stand for columns
(`Predicate.resolves_of_exprsAt`).  It may read fewer: membership in nothing is a constant,
whose path is resolved all the same.  Nothing but the columns of its own paths decides what
it is (`Predicate.exprsAt_congr`).
-/

import EntityQuery.Proofs.Predicate.Outcome

namespace EntityQuery

/-- The other attribute that a test compares with, if there is one. -/
def Test.others {ρ : Type} : Test ρ → List ρ
  | .compareWith _ other => [other]
  | _ => []

/-- A comparison that fits has its own path and those that its test compares with. -/
theorem Comparison.paths_eq {c : Comparison} {t : Test Path}
    (ht : Test.of? c.operator c.operand = some t) : c.paths = c.path :: t.others := by
  obtain ⟨-, hx⟩ := Test.of?_eq_some ht
  rw [paths, ← hx]
  cases t <;> rfl

namespace Expr

/-- The columns that an expression reads. -/
def columns : Expr → List ColumnRef
  | constant _ => []
  | test c t => c :: t.others
  | .and l r => columns l ++ columns r
  | .or l r => columns l ++ columns r
  | .not e => columns e

/-- A fold has the columns of all its parts. -/
theorem columns_foldl {f : Expr → Expr → Expr}
    (hf : ∀ l r, (f l r).columns = l.columns ++ r.columns) (e : Expr) (es : List Expr) :
    (es.foldl f e).columns = e.columns ++ es.flatMap columns := by
  induction es generalizing e with
  | nil => simp
  | cons e' es ih => rw [List.foldl_cons, ih, hf, List.append_assoc, List.flatMap_cons]

/-- A conjunction has the columns of all its parts. -/
theorem columns_all (es : List Expr) : (all es).columns = es.flatMap columns := by
  cases es with
  | nil => rfl
  | cons e es => exact columns_foldl (fun _ _ => rfl) e es

/-- A disjunction has the columns of all its parts. -/
theorem columns_any (es : List Expr) : (any es).columns = es.flatMap columns := by
  cases es with
  | nil => rfl
  | cons e es => exact columns_foldl (fun _ _ => rfl) e es

end Expr

/-! ### Tests and comparisons -/

variable {column column' : Path → Except QueryError ColumnRef}

/-- The attribute of a comparison is one of its paths. -/
theorem Comparison.mem_paths_self (c : Comparison) : c.path ∈ c.paths := by
  unfold paths
  split <;> simp

/-- A comparison that becomes an expression fits, and all of its paths stand for columns. -/
theorem Comparison.exprAt_eq_ok {c : Comparison} {e : Expr} (h : c.exprAt column = .ok e) :
    ∃ (t : Test Path) (u : Test ColumnRef) (left : ColumnRef), c.paths = c.path :: t.others ∧
      column c.path = .ok left ∧ t.traverse column = .ok u ∧ e = u.expr left := by
  obtain ⟨left, hleft, h⟩ := Except.bind_eq_ok_iff.1 h
  split at h
  · cases h
  · next t ht =>
    obtain ⟨u, hu, h⟩ := Except.bind_eq_ok_iff.1 h
    exact ⟨t, u, left, paths_eq ht, hleft, hu, (Except.ok.inj h).symm⟩

/-- The expression of a test has no columns but the tested one and the other attribute's. -/
theorem Test.columns_expr {c d : ColumnRef} {t : Test ColumnRef}
    (h : d ∈ (t.expr c).columns) : d = c ∨ d ∈ t.others := by
  cases t with
  | isIn vs => cases vs <;> simp_all [Test.expr, Expr.columns]
  | notIn vs => cases vs <;> simp_all [Test.expr, Expr.columns]
  | _ => simpa [Test.expr, Expr.columns] using h

/-- A test with its other path resolved compares with the column that the path stands
for. -/
theorem Test.columns_of_traverse {t : Test Path} {u : Test ColumnRef}
    (h : t.traverse column = .ok u) :
    (∀ p ∈ t.others, ∃ c, column p = .ok c) ∧
      ∀ c ∈ u.others, ∃ p ∈ t.others, column p = .ok c := by
  cases t with
  | compareWith o other =>
    obtain ⟨c, hc, h⟩ := Except.bind_eq_ok_iff.1 h
    obtain rfl := Except.ok.inj h
    simp [others, hc]
  | _ =>
    obtain rfl := Except.ok.inj h
    simp [others]

/-- What a test becomes depends on its other attribute's column alone. -/
theorem Test.traverse_congr {t : Test Path} (h : ∀ p ∈ t.others, column p = column' p) :
    t.traverse column = t.traverse column' := by
  cases t with
  | compareWith o other => rw [traverse, traverse, h other (List.mem_singleton_self _)]
  | _ => rfl

/-- What a comparison becomes depends on the columns of its paths alone. -/
theorem Comparison.exprAt_congr {c : Comparison}
    (h : ∀ p ∈ c.paths, column p = column' p) : c.exprAt column = c.exprAt column' := by
  rw [exprAt, exprAt, h c.path c.mem_paths_self]
  rcases ht : Test.of? c.operator c.operand with _ | t
  · rfl
  · rw [paths_eq ht] at h
    show (do
      let left ← column' c.path
      let u ← t.traverse column
      pure (u.expr left)) = _
    rw [Test.traverse_congr fun p hp => h p (List.mem_cons_of_mem _ hp)]

/-! ### Predicates -/

namespace Predicate

/-- The paths of a predicate, depth first and from left to right. -/
def paths (p : Predicate) : List Path := p.leaves.flatMap Comparison.paths

/-- The paths of some predicates. -/
def pathsOf (ps : List Predicate) : List Path := (leavesOf ps).flatMap Comparison.paths

/-- Predicates have the paths of the first, and then those of the others. -/
theorem pathsOf_cons (p : Predicate) (ps : List Predicate) :
    pathsOf (p :: ps) = p.paths ++ pathsOf ps := by
  rw [pathsOf, leavesOf, List.flatMap_append]
  rfl

mutual

/-- Every path of a predicate that becomes an expression stands for a column. -/
theorem resolves_of_exprAt :
    ∀ {p : Predicate} {e : Expr}, exprAt column p = .ok e →
      ∀ path ∈ p.paths, ∃ c, column path = .ok c
  | .comparison c, e, h, path, hp => by
    obtain ⟨t, u, left, hc, hleft, hu, -⟩ := Comparison.exprAt_eq_ok (by rwa [exprAt] at h)
    rw [paths, leaves, List.flatMap_singleton, hc] at hp
    rcases List.mem_cons.1 hp with rfl | hp
    · exact ⟨left, hleft⟩
    · exact (Test.columns_of_traverse hu).1 path hp
  | .and ps, e, h, path, hp => by
    obtain ⟨es, hes, -⟩ := exprAt_and_eq_ok.1 h
    exact resolves_of_exprsAt hes path hp
  | .or ps, e, h, path, hp => by
    obtain ⟨es, hes, -⟩ := exprAt_or_eq_ok.1 h
    exact resolves_of_exprsAt hes path hp
  | .not p, e, h, path, hp => by
    obtain ⟨f, hf, -⟩ := exprAt_not_eq_ok.1 h
    exact resolves_of_exprAt hf path hp

/-- If some predicates have expressions, all their paths resolve. -/
theorem resolves_of_exprsAt :
    ∀ {ps : List Predicate} {es : List Expr}, exprsAt column ps = .ok es →
      ∀ path ∈ pathsOf ps, ∃ c, column path = .ok c
  | [], _, _, _, hp => by simp [pathsOf, leavesOf] at hp
  | p :: ps, es, h, path, hp => by
    obtain ⟨f, fs, hf, hfs, -⟩ := exprsAt_cons_eq_ok.1 h
    rw [pathsOf_cons, List.mem_append] at hp
    exact hp.elim (resolves_of_exprAt hf path) (resolves_of_exprsAt hfs path)

end

mutual

/-- **An expression reads columns of its own paths only.** -/
theorem columns_of_exprAt :
    ∀ {p : Predicate} {e : Expr}, exprAt column p = .ok e →
      ∀ c ∈ e.columns, ∃ path ∈ p.paths, column path = .ok c
  | .comparison c, e, h, d, hd => by
    obtain ⟨t, u, left, hc, hleft, hu, rfl⟩ := Comparison.exprAt_eq_ok (by rwa [exprAt] at h)
    rw [paths, leaves, List.flatMap_singleton, hc]
    rcases Test.columns_expr hd with rfl | hd
    · exact ⟨c.path, List.mem_cons_self .., hleft⟩
    · obtain ⟨p, hp, hcol⟩ := (Test.columns_of_traverse hu).2 d hd
      exact ⟨p, List.mem_cons_of_mem _ hp, hcol⟩
  | .and ps, e, h, d, hd => by
    obtain ⟨es, hes, rfl⟩ := exprAt_and_eq_ok.1 h
    exact columns_of_exprsAt hes d (Expr.columns_all es ▸ hd)
  | .or ps, e, h, d, hd => by
    obtain ⟨es, hes, rfl⟩ := exprAt_or_eq_ok.1 h
    exact columns_of_exprsAt hes d (Expr.columns_any es ▸ hd)
  | .not p, e, h, d, hd => by
    obtain ⟨f, hf, rfl⟩ := exprAt_not_eq_ok.1 h
    exact columns_of_exprAt hf d hd

/-- The expressions of some predicates have no columns but those of their paths. -/
theorem columns_of_exprsAt :
    ∀ {ps : List Predicate} {es : List Expr}, exprsAt column ps = .ok es →
      ∀ c ∈ es.flatMap Expr.columns, ∃ path ∈ pathsOf ps, column path = .ok c
  | [], es, h, d, hd => by
    obtain rfl : [] = es := by simpa [exprsAt] using h
    simp at hd
  | p :: ps, es, h, d, hd => by
    obtain ⟨f, fs, hf, hfs, rfl⟩ := exprsAt_cons_eq_ok.1 h
    rw [List.flatMap_cons, List.mem_append] at hd
    rw [pathsOf_cons]
    rcases hd with hd | hd
    · obtain ⟨path, hp, hcol⟩ := columns_of_exprAt hf d hd
      exact ⟨path, List.mem_append_left _ hp, hcol⟩
    · obtain ⟨path, hp, hcol⟩ := columns_of_exprsAt hfs d hd
      exact ⟨path, List.mem_append_right _ hp, hcol⟩

end

mutual

/-- What a predicate becomes is decided by the columns of its own paths. -/
theorem exprAt_congr : ∀ {p : Predicate}, (∀ path ∈ p.paths, column path = column' path) →
    exprAt column p = exprAt column' p
  | .comparison c, h => by
    rw [exprAt, exprAt]
    exact Comparison.exprAt_congr fun path hp =>
      h path (List.mem_flatMap.2 ⟨c, List.mem_singleton_self c, hp⟩)
  | .and ps, h => by rw [exprAt, exprAt, exprsAt_congr h]
  | .or ps, h => by rw [exprAt, exprAt, exprsAt_congr h]
  | .not p, h => by rw [exprAt, exprAt, exprAt_congr (p := p) h]

/-- What some predicates become depends on the columns of their paths alone. -/
theorem exprsAt_congr : ∀ {ps : List Predicate},
    (∀ path ∈ pathsOf ps, column path = column' path) → exprsAt column ps = exprsAt column' ps
  | [], _ => rfl
  | p :: ps, h => by
    rw [pathsOf_cons] at h
    rw [exprsAt, exprsAt, exprAt_congr fun path hp => h path (List.mem_append_left _ hp),
      exprsAt_congr fun path hp => h path (List.mem_append_right _ hp)]

end

/-! ### Filters -/

section Filter

variable {ps : List Predicate} {f : Option Expr}

/-- A filter is the conjunction, grouped from the left, of the expressions of its
predicates. -/
theorem filterAt_eq_ok : filterAt column ps = .ok f ↔
    ∃ es, exprsAt column ps = .ok es ∧ f = if es = [] then none else some (.all es) := by
  rw [filterAt, Except.bind_eq_ok_iff]
  refine exists_congr fun es => and_congr_right fun _ => ?_
  cases es <;> simp [pure, Except.pure, eq_comm]

/-- What a filter becomes depends on the columns of its paths alone. -/
theorem filterAt_congr (h : ∀ path ∈ pathsOf ps, column path = column' path) :
    filterAt column ps = filterAt column' ps := by
  rw [filterAt, filterAt, exprsAt_congr h]

/-- If a filter comes out, all its paths resolve. -/
theorem resolves_of_filterAt (h : filterAt column ps = .ok f) :
    ∀ path ∈ pathsOf ps, ∃ c, column path = .ok c := by
  obtain ⟨es, hes, -⟩ := filterAt_eq_ok.1 h
  exact resolves_of_exprsAt hes

/-- A filter reads columns of its own paths only. -/
theorem columns_of_filterAt (h : filterAt column ps = .ok f) :
    ∀ e ∈ f, ∀ c ∈ e.columns, ∃ path ∈ pathsOf ps, column path = .ok c := by
  obtain ⟨es, hes, rfl⟩ := filterAt_eq_ok.1 h
  intro e he c hc
  split_ifs at he
  · cases he
  · obtain rfl := Option.some.inj he
    exact columns_of_exprsAt hes c (Expr.columns_all es ▸ hc)

end Filter

end Predicate
end EntityQuery
