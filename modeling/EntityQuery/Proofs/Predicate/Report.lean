/-
# What is wrong with a predicate

Compiling goes from left to right and stops at the first thing that is wrong.  Here all that
is wrong is listed, in the same order and without stopping, and compiling is said to report
on the list (`Reports`): it fails with the first entry, and succeeds if there is none.

A comparison goes wrong with its own path, then with an operand that does not fit, then with
the path that it compares with (`Comparison.violations`).  What is wrong with a predicate is
what is wrong with its leaves, and nothing else (`Predicate.reports_exprsAt`).
-/

import EntityQuery.Proofs.Predicate.Columns

namespace EntityQuery

open Resolving

/-! ### Reports -/

/-- The result is the first of some errors, or a value if there are none. -/
def Reports {α : Type} (x : Except QueryError α) : List QueryError → Prop
  | [] => ∃ a, x = .ok a
  | e :: _ => x = .error e

namespace Reports

variable {α β : Type} {x : Except QueryError α} {y : Except QueryError β}
  {vs ws : List QueryError}

/-- There is a value if and only if nothing is wrong. -/
theorem ok_iff (h : Reports x vs) : (∃ a, x = .ok a) ↔ vs = [] := by
  cases vs with
  | nil => exact iff_of_true h rfl
  | cons e vs =>
    obtain rfl : x = .error e := h
    simp

/-- The error is the first of what is wrong. -/
theorem error_iff (h : Reports x vs) {e : QueryError} : x = .error e ↔ vs.head? = some e := by
  cases vs with
  | nil =>
    obtain ⟨a, rfl⟩ := h
    simp
  | cons e' vs =>
    obtain rfl : x = .error e' := h
    simp

/-- Nothing is wrong with a value. -/
protected theorem pure (a : α) : Reports (pure a) [] := ⟨a, rfl⟩

/-- A second step adds what is wrong with it. -/
protected theorem bind {f : α → Except QueryError β} (hx : Reports x vs)
    (hf : ∀ a, Reports (f a) ws) : Reports (x >>= f) (vs ++ ws) := by
  cases vs with
  | nil =>
    obtain ⟨a, rfl⟩ := hx
    exact hf a
  | cons e vs =>
    obtain rfl : x = .error e := hx
    exact rfl

/-- A last step that cannot fail adds nothing. -/
theorem map {f : α → Except QueryError β} (hx : Reports x vs) (hf : ∀ a, Reports (f a) []) :
    Reports (x >>= f) vs :=
  List.append_nil vs ▸ hx.bind hf

/-- A report says when a value comes out and with which error none does, not which value. -/
theorem transfer (h : Reports x vs) (hok : ∀ a, x = .ok a → ∃ b, y = .ok b)
    (herror : ∀ e, x = .error e → y = .error e) : Reports y vs := by
  cases vs with
  | nil =>
    obtain ⟨a, ha⟩ := h
    exact hok a ha
  | cons e vs => exact herror e h

section Run

variable {r : Resolver} {x : Resolving α} {f : α → Resolving β}

/-- The second step of a run starts where the first has ended. -/
theorem runFrom_bind (hx : Reports (runFrom r x).1 vs)
    (hf : ∀ a r', runFrom r x = (.ok a, r') → Reports (runFrom r' (f a)).1 ws) :
    Reports (runFrom r (x >>= f)).1 (vs ++ ws) := by
  rcases hr : runFrom r x with ⟨e | a, r'⟩ <;> rw [hr] at hx
  · rw [runFrom_bind_of_error hr]
    have hhead : vs.head? = some e := hx.error_iff.1 rfl
    cases vs with
    | nil => cases hhead
    | cons e' vs =>
      obtain rfl := Option.some.inj hhead
      exact rfl
  · rw [runFrom_bind_of_ok hr, hx.ok_iff.1 ⟨a, rfl⟩]
    exact hf a r' hr

/-- A last step that cannot fail adds nothing to what is wrong with a run. -/
theorem runFrom_map (hx : Reports (runFrom r x).1 vs)
    (hf : ∀ a r', Reports (runFrom r' (f a)).1 []) : Reports (runFrom r (x >>= f)).1 vs :=
  List.append_nil vs ▸ hx.runFrom_bind fun a r' _ => hf a r'

end Run
end Reports

/-! ### Comparisons -/

variable {column : Path → Except QueryError ColumnRef} {faults : Path → List QueryError}

/-- What is wrong with a comparison, given what is wrong with each path. -/
def Comparison.violations (faults : Path → List QueryError) (c : Comparison) :
    List QueryError :=
  faults c.path ++ match Test.of? c.operator c.operand with
    | none => [.invalidOperand c.operator c.path.toText]
    | some t => t.others.flatMap faults

/-- With a comparison that fits, only its paths may be wrong. -/
theorem Comparison.violations_of_fits {c : Comparison} (h : c.Fits) :
    c.violations faults = c.paths.flatMap faults := by
  obtain ⟨t, ht⟩ := fits_iff.1 h
  rw [Comparison.violations, ht, paths_eq ht, List.flatMap_cons]

/-- A test reports what is wrong with its other attribute. -/
theorem Test.reports_traverse (h : ∀ path, Reports (column path) (faults path))
    (t : Test Path) : Reports (t.traverse column) (t.others.flatMap faults) := by
  cases t with
  | compareWith c other =>
    rw [others, List.flatMap_singleton]
    exact (h other).map fun _ => .pure _
  | _ => exact .pure _

/-- A comparison reports what is wrong with its paths and its operand. -/
theorem Comparison.reports_exprAt (h : ∀ path, Reports (column path) (faults path))
    (c : Comparison) : Reports (c.exprAt column) (c.violations faults) := by
  refine (h c.path).bind fun left => ?_
  rcases Test.of? c.operator c.operand with _ | t
  · exact rfl
  · exact (t.reports_traverse h).map fun _ => .pure _

/-! ### Predicates -/

namespace Predicate

/-- What is wrong with some predicates, given what is wrong with each path. -/
def violations (faults : Path → List QueryError) (ps : List Predicate) : List QueryError :=
  (leavesOf ps).flatMap (Comparison.violations faults)

/-- With predicates whose comparisons fit, only their paths may be wrong. -/
theorem violations_of_fits {ps : List Predicate} (h : ∀ c ∈ leavesOf ps, c.Fits) :
    Predicate.violations faults ps = (pathsOf ps).flatMap faults := by
  rw [Predicate.violations, pathsOf, List.flatMap_assoc]
  exact List.flatMap_congr fun c hc => Comparison.violations_of_fits (h c hc)

mutual

/-- **A predicate reports what is wrong with its comparisons,** from left to right. -/
theorem reports_exprAt (h : ∀ path, Reports (column path) (faults path)) :
    ∀ p : Predicate,
      Reports (exprAt column p) (p.leaves.flatMap (Comparison.violations faults))
  | .comparison c => by
    rw [exprAt, leaves, List.flatMap_singleton]
    exact c.reports_exprAt h
  | .and ps => by
    rw [exprAt]
    exact (reports_exprsAt h ps).map fun _ => .pure _
  | .or ps => by
    rw [exprAt]
    exact (reports_exprsAt h ps).map fun _ => .pure _
  | .not p => by
    rw [exprAt]
    exact (reports_exprAt h p).map fun _ => .pure _

/-- **Predicates fail with the first thing that is wrong with a leaf,** depth first and from
left to right. -/
theorem reports_exprsAt (h : ∀ path, Reports (column path) (faults path)) :
    ∀ ps : List Predicate, Reports (exprsAt column ps) (Predicate.violations faults ps)
  | [] => .pure _
  | p :: ps => by
    rw [exprsAt, Predicate.violations, leavesOf, List.flatMap_append]
    exact (reports_exprAt h p).bind fun _ => (reports_exprsAt h ps).map fun _ => .pure _

end

/-- **A filter reports what is wrong with its predicates,** from left to right. -/
theorem reports_filterAt (h : ∀ path, Reports (column path) (faults path))
    (ps : List Predicate) : Reports (filterAt column ps) (Predicate.violations faults ps) :=
  (reports_exprsAt h ps).map fun _ => .pure _

end Predicate

/-! ### Conditions -/

/-- The comparisons of the predicate that a condition puts together fit. -/
theorem Condition.fits_of_predicate {x : Condition} {p : Predicate} (h : x.predicate = .ok p) :
    ∀ c ∈ p.leaves, c.Fits := fun _ hc =>
  x.fits_of_mem_leaves (leaves_of_predicate h ▸ hc)

end EntityQuery
