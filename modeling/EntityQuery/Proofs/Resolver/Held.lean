/-
# The joins that a series of paths leaves behind

Paths that are resolved one after the other on the same resolver share their joins by
name.  Which join goes by a name is decided once: it is that of the first stop that any of
the paths reaches under the name (`Resolver.held_after`), whatever relations the later
stops under the name follow.
-/

import EntityQuery.Proofs.Resolver.Keeps

namespace EntityQuery
namespace Resolver

open Resolving

/-! ### Joins by name -/

/-- The joins that go by a name. -/
def held (r : Resolver) (name : String) : List Join :=
  r.joins.filter fun j => j.qualifier = name

/-- A name is not joined if and only if no join goes by it. -/
theorem held_eq_nil {r : Resolver} {name : String} :
    r.held name = [] ↔ r.isJoined name = false := by
  simp [held, isJoined]

/-- A visit adds a join under its own name if none goes by it. -/
theorem held_visit (r : Resolver) (s : Stop) (name : String) :
    (r.visit s).held name =
      if s.name = name ∧ r.held name = [] then [s.join] else r.held name := by
  unfold visit
  by_cases hj : r.isJoined s.name = true
  · rw [if_pos hj, if_neg]
    rintro ⟨rfl, hnil⟩
    rw [held_eq_nil, hj] at hnil
    exact Bool.false_ne_true hnil.symm
  · have hnil : r.held s.name = [] := held_eq_nil.2 (Bool.eq_false_iff.2 hj)
    rw [if_neg hj, held, List.filter_append]
    by_cases hn : s.name = name
    · subst hn
      rw [if_pos ⟨rfl, hnil⟩]
      show r.held s.name ++ _ = _
      simp [hnil]
    · rw [if_neg fun h => hn h.1]
      show r.held name ++ _ = _
      simp [hn]

/-- **The first stop under a name decides its join** unless one goes by it already. -/
theorem held_foldl_visit (r : Resolver) (ss : List Stop) (name : String) :
    (ss.foldl visit r).held name =
      if r.held name = [] then ((ss.find? fun s => s.name = name).map Stop.join).toList
      else r.held name := by
  induction ss generalizing r with
  | nil =>
    by_cases hnil : r.held name = []
    · rw [if_pos hnil]
      exact hnil
    · rw [if_neg hnil]
      rfl
  | cons s ss ih =>
    rw [List.foldl_cons, ih, held_visit]
    by_cases hn : s.name = name <;> by_cases hnil : r.held name = [] <;> simp [hn, hnil]

/-! ### Names in use -/

/-- Every join goes by a name in use. -/
def Registered (r : Resolver) : Prop := ∀ j ∈ r.joins, j.qualifier ∈ r.names

/-- Joins stay registered: a visit takes the name of its join into use. -/
theorem stable_registered : Stable Registered where
  reserve _ h j hj := List.mem_cons_of_mem _ (h j hj)
  visit {r s} _ h := by
    unfold visit
    split_ifs
    · exact h
    · intro j hj
      rcases List.mem_append.1 hj with hj | hj
      · exact List.mem_cons_of_mem _ (h j hj)
      · rw [List.mem_singleton.1 hj]
        exact List.mem_cons_self ..

/-- A name that a join goes by is in use. -/
theorem Registered.mem_names {r : Resolver} (h : r.Registered) {name : String}
    (hn : r.held name ≠ []) : name ∈ r.names := by
  obtain ⟨j, hj⟩ := List.exists_mem_of_ne_nil _ hn
  obtain ⟨hj, hq⟩ := List.mem_filter.1 hj
  rw [decide_eq_true_eq] at hq
  exact hq ▸ h j hj

/-! ### Series of paths -/

/-- The resolver after some paths, whatever has come of them. -/
def after (r : Resolver) (scope : Scope) (ps : List Path) : Resolver :=
  ps.foldl (fun r p => (runFrom r (resolve scope p)).2) r

/-- The stops that some paths reach. -/
def reachedBy (r : Resolver) (scope : Scope) (ps : List Path) : List Stop :=
  ps.flatMap (scope.reached r.isOpen)

/-- Some paths leave the stops that they reach visited. -/
theorem after_eq (r : Resolver) (scope : Scope) (ps : List Path) :
    r.after scope ps = (r.reachedBy scope ps).foldl visit r := by
  induction ps generalizing r with
  | nil => rfl
  | cons p ps ih =>
    have hopen : ((scope.reached r.isOpen p).foldl visit r).isOpen = r.isOpen :=
      isOpen_foldl_visit fun _ hs => Scope.isOpen_of_mem_reached hs
    rw [after, List.foldl_cons, ← after, ih, runFrom_resolve]
    simp only [reachedBy, List.flatMap_cons, List.foldl_append, hopen]

/-- Paths reach open names only. -/
theorem isOpen_of_mem_reachedBy {r : Resolver} {scope : Scope} {ps : List Path} {s : Stop}
    (h : s ∈ r.reachedBy scope ps) : r.isOpen s.name = true := by
  obtain ⟨p, -, hs⟩ := List.mem_flatMap.1 h
  exact Scope.isOpen_of_mem_reached hs

/-- A property that survives visits of open names survives any paths. -/
theorem after_of {P : Resolver → Prop}
    (hvisit : ∀ {r : Resolver} {s}, r.isOpen s.name = true → P r → P (r.visit s)) (scope : Scope)
    (ps : List Path) {r : Resolver} (h : P r) : P (r.after scope ps) := by
  rw [after_eq]
  exact foldl_visit_of hvisit (fun _ => isOpen_of_mem_reachedBy) h

/-- Resolving paths changes no open name. -/
theorem isOpen_after (r : Resolver) (scope : Scope) (ps : List Path) :
    (r.after scope ps).isOpen = r.isOpen := by
  rw [after_eq]
  exact isOpen_foldl_visit fun _ => isOpen_of_mem_reachedBy

/-- **The first stop that paths reach under a name decides its join.** -/
theorem held_after (names : List String) (scope : Scope) (ps : List Path) (name : String) :
    ((⟨names, []⟩ : Resolver).after scope ps).held name =
      ((((⟨names, []⟩ : Resolver).reachedBy scope ps).find? fun s => s.name = name).map
        Stop.join).toList := by
  rw [after_eq, held_foldl_visit]
  exact if_pos rfl

/-- After any paths, every join goes by a name in use. -/
theorem registered_after (names : List String) (scope : Scope) (ps : List Path) :
    ((⟨names, []⟩ : Resolver).after scope ps).Registered :=
  after_of stable_registered.visit scope ps fun _ hj => absurd hj List.not_mem_nil

end Resolver
end EntityQuery
