/-
# What resolving never undoes

Filters and sort keys resolve their own paths in one scope and refuse operands that do not fit
(`Resolving.Within`).  A whole statement takes names into use besides, and has a scope for each
of its joins (`Resolving.Built`, `Criteria.built_resolveParts`).  All that these steps do to a
resolver is taking names into use and visiting stops of open names, so a property that survives
these two (`Resolver.Stable`) survives the whole, whether it succeeds or not
(`Stable.keeps_of_built`).
-/

import EntityQuery.Criteria.Compile
import EntityQuery.Proofs.Predicate.Columns

namespace EntityQuery

/-- A computation that is put together from resolving some paths in a scope. -/
inductive Resolving.Within (scope : Scope) (ps : List Path) : {α : Type} → Resolving α → Prop
  | pure {α : Type} (a : α) : Within scope ps (Pure.pure a)
  | resolve {path : Path} : path ∈ ps → Within scope ps (Resolver.resolve scope path)
  | invalidOperand {α : Type} (o : Operator) (text : String) :
    Within scope ps (throw (.invalidOperand o text) : Resolving α)
  | bind {α β : Type} {x : Resolving α} {f : α → Resolving β} :
    Within scope ps x → (∀ a, Within scope ps (f a)) → Within scope ps (x >>= f)

/-- A computation that is put together from the steps of resolving. -/
inductive Resolving.Built : {α : Type} → Resolving α → Prop
  | pure {α : Type} (a : α) : Built (Pure.pure a)
  | reserve (name : String) : Built (Resolver.reserve name)
  | resolve (scope : Scope) (path : Path) : Built (Resolver.resolve scope path)
  | invalidOperand {α : Type} (o : Operator) (text : String) :
    Built (throw (.invalidOperand o text) : Resolving α)
  | bind {α β : Type} {x : Resolving α} {f : α → Resolving β} :
    Built x → (∀ a, Built (f a)) → Built (x >>= f)

open Resolving

namespace Resolving.Within

variable {scope : Scope} {ps qs : List Path} {α : Type} {x : Resolving α}

/-- More paths may be allowed than are resolved. -/
theorem mono (hsub : ps ⊆ qs) (hx : Within scope ps x) : Within scope qs x := by
  induction hx with
  | pure a => exact .pure a
  | resolve h => exact .resolve (hsub h)
  | invalidOperand o text => exact .invalidOperand o text
  | bind _ _ ihx ihf => exact .bind ihx ihf

/-- Resolving paths of one scope takes none but the steps of resolving. -/
theorem built (hx : Within scope ps x) : Built x := by
  induction hx with
  | pure a => exact .pure a
  | @resolve path _ => exact .resolve scope path
  | invalidOperand o text => exact .invalidOperand o text
  | bind _ _ ihx ihf => exact .bind ihx ihf

end Resolving.Within

/-! ### How filters and sort keys are resolved -/

/-- A comparison resolves its own paths. -/
theorem Comparison.within_expr (scope : Scope) (c : Comparison) :
    Within scope c.paths (c.expr scope) := by
  refine .bind (.resolve c.mem_paths_self) fun column => ?_
  rcases ht : Test.of? c.operator c.operand with _ | t
  · exact .invalidOperand _ _
  · have hothers : Within scope c.paths (t.resolve scope) := by
      rw [paths_eq ht]
      cases t with
      | compareWith _ other =>
        exact .bind (.resolve (List.mem_cons_of_mem _ (List.mem_singleton_self _))) fun _ => .pure _
      | _ => exact .pure _
    exact .bind hothers fun _ => .pure _

namespace Predicate

mutual

/-- A predicate resolves its own paths. -/
theorem within_expr (scope : Scope) : ∀ p : Predicate, Within scope p.paths (p.expr scope)
  | .comparison c => by
    rw [expr, paths, leaves, List.flatMap_singleton]
    exact c.within_expr scope
  | .and ps => by
    rw [expr]
    exact .bind (within_exprs scope ps) fun _ => .pure _
  | .or ps => by
    rw [expr]
    exact .bind (within_exprs scope ps) fun _ => .pure _
  | .not p => by
    rw [expr]
    exact .bind (within_expr scope p) fun _ => .pure _

/-- Some predicates resolve their own paths. -/
theorem within_exprs (scope : Scope) :
    ∀ ps : List Predicate, Within scope (pathsOf ps) (exprs scope ps)
  | [] => by
    rw [exprs]
    exact .pure _
  | p :: ps => by
    rw [exprs, pathsOf_cons]
    exact .bind ((within_expr scope p).mono (List.subset_append_left _ _)) fun _ =>
      .bind ((within_exprs scope ps).mono (List.subset_append_right _ _)) fun _ => .pure _

end

/-- **Predicates resolve their own paths in one scope.** -/
theorem within_filter (scope : Scope) (ps : List Predicate) :
    Within scope (pathsOf ps) (filter scope ps) := by
  rw [filter_eq]
  exact .bind (within_exprs scope ps) fun _ => .pure _

end Predicate

/-- Sort keys resolve their own paths in one scope. -/
theorem SortKey.within_ordering (scope : Scope) :
    ∀ ks : List SortKey, Within scope (ks.map SortKey.path) (ordering scope ks)
  | [] => .pure _
  | _ :: ks => .bind (.resolve (List.mem_cons_self ..)) fun _ =>
    .bind ((within_ordering scope ks).mono (List.subset_cons_self _ _)) fun _ => .pure _

/-! ### How statements are resolved -/

namespace JoinNode

mutual

/-- A join is compiled in these steps, and so are the joins below it. -/
theorem built_compile : ∀ n : JoinNode, Built n.compile
  | ⟨relation, qualifier, parent, kind, conditions, children⟩ => by
    rw [compile]
    exact .bind (.reserve qualifier) fun _ =>
      .bind (Predicate.within_filter _ conditions).built fun _ =>
        .bind (built_compileAll children) fun _ => .pure _

/-- Joins are compiled in these steps. -/
theorem built_compileAll : ∀ ns : List JoinNode, Built (compileAll ns)
  | [] => by
    rw [compileAll]
    exact .pure _
  | n :: ns => by
    rw [compileAll]
    exact .bind (built_compile n) fun _ => .bind (built_compileAll ns) fun _ => .pure _

end

end JoinNode

/-- **All parts of a statement are resolved in these steps.** -/
theorem Criteria.built_resolveParts (q : Criteria) : Built q.resolveParts :=
  .bind (.reserve _) fun _ => .bind (JoinNode.built_compileAll q.joins) fun _ =>
    .bind (Predicate.within_filter q.scope q.conditions).built fun _ =>
      .bind (SortKey.within_ordering q.scope q.keys).built fun _ => .pure _

/-! ### What the steps keep -/

/-- A computation after which a property holds if it has held before. -/
def Resolving.Keeps {α : Type} (P : Resolver → Prop) (x : Resolving α) : Prop :=
  ∀ r, P r → P (runFrom r x).2

/-- A property that survives the steps of resolving. -/
structure Resolver.Stable (P : Resolver → Prop) : Prop where
  reserve : ∀ {r : Resolver} {name}, name ∉ r.names → P r → P { r with names := name :: r.names }
  visit : ∀ {r : Resolver} {s}, r.isOpen s.name = true → P r → P (r.visit s)

/-- A property that survives visits of open names survives any number of them. -/
theorem Resolver.foldl_visit_of {P : Resolver → Prop}
    (hvisit : ∀ {r : Resolver} {s}, r.isOpen s.name = true → P r → P (r.visit s))
    {ss : List Stop} {r : Resolver} (hopen : ∀ s ∈ ss, r.isOpen s.name = true) (h : P r) :
    P (ss.foldl visit r) := by
  induction ss generalizing r with
  | nil => exact h
  | cons s ss ih =>
    have hs := hopen s (List.mem_cons_self ..)
    refine ih (fun t ht => ?_) (hvisit hs h)
    rw [isOpen_visit hs]
    exact hopen t (List.mem_cons_of_mem _ ht)

namespace Resolver.Stable

variable {P : Resolver → Prop}

/-- Taking a name into use keeps what is stable. -/
theorem keeps_reserve (hP : Stable P) (name : String) : Keeps P (Resolver.reserve name) := by
  intro r h
  rw [runFrom_reserve]
  split
  · exact h
  · next hn => exact hP.reserve hn h

/-- Resolving a path keeps what is stable: it visits stops of open names. -/
theorem keeps_resolve (hP : Stable P) (scope : Scope) (path : Path) :
    Keeps P (resolve scope path) := by
  intro r h
  rw [runFrom_resolve]
  exact foldl_visit_of hP.visit (fun s hs => Scope.isOpen_of_mem_reached hs) h

/-- **Whatever is put together from the steps keeps what is stable.** -/
theorem keeps_of_built (hP : Stable P) {α : Type} {x : Resolving α} (hx : Built x) :
    Keeps P x := by
  induction hx with
  | pure a => exact fun _ h => h
  | reserve name => exact hP.keeps_reserve name
  | resolve scope path => exact hP.keeps_resolve scope path
  | invalidOperand o text => exact fun _ h => h
  | @bind _ _ x f _ _ ihx ihf =>
    intro r h
    have hr := ihx r h
    rw [runFrom_bind]
    rcases hrun : runFrom r x with ⟨e | a, r'⟩ <;> rw [hrun] at hr
    · exact hr
    · exact ihf a r' hr

/-- All parts of a statement keep what is stable. -/
theorem keeps_resolveParts (hP : Stable P) (q : Criteria) : Keeps P q.resolveParts :=
  hP.keeps_of_built q.built_resolveParts

end Resolver.Stable
end EntityQuery
