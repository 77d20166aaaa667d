/-
# Templates of conditions

The template of a condition is the condition with its literals blanked: it keeps the paths,
the operators, the nesting and the number of values in each set.  Two conditions that differ
in literals only are two conditions with one template.

Blanking can be put off until after each stage.  The template of a condition puts the template
of its predicate together (`Condition.predicate_template`), and the template of a predicate
compiles to the template of its expression (`Predicate.expr_template`), with the same errors
and the same changes of the resolver: both are equations between computations.
-/

import EntityQuery.Condition.Basic
import EntityQuery.Sql.Filter

namespace EntityQuery

/-- The literal that stands for any. -/
def Literal.blank : Literal := .bool none

/-- A test with its literals blanked; a set keeps the number of its values. -/
def Test.template {ρ : Type} : Test ρ → Test ρ
  | .compare c _ => .compare c .blank
  | .isIn vs => .isIn (vs.map fun _ => .blank)
  | .notIn vs => .notIn (vs.map fun _ => .blank)
  | .between _ _ => .between .blank .blank
  | .notBetween _ _ => .notBetween .blank .blank
  | .like _ => .like ""
  | .notLike _ => .notLike ""
  | t => t

/-- A comparison with its literals blanked; one whose operand does not fit stays as it is. -/
def Comparison.template (c : Comparison) : Comparison :=
  match Test.of? c.operator c.operand with
  | some t => .ofTest c.path t.template
  | none => c

/-- A comparison that is made of a test has the test's template. -/
theorem Comparison.template_ofTest (path : Path) (t : Test Path) :
    (ofTest path t).template = ofTest path t.template := by
  simp [template, ofTest]

/-! ### Building -/

namespace Predicate

mutual

/-- A predicate with its literals blanked. -/
def template : Predicate → Predicate
  | .comparison c => .comparison c.template
  | .and ps => .and (templates ps)
  | .or ps => .or (templates ps)
  | .not p => .not (template p)

/-- Some predicates with their literals blanked. -/
def templates : List Predicate → List Predicate
  | [] => []
  | p :: ps => template p :: templates ps

end

/-- The templates of some predicates are those of each. -/
theorem templates_eq_map (ps : List Predicate) : templates ps = ps.map template := by
  induction ps with
  | nil => rfl
  | cons p ps ih => rw [templates, ih, List.map_cons]

/-- The conjuncts of a template are the templates of the conjuncts. -/
theorem conjuncts_template (p : Predicate) : p.template.conjuncts = templates p.conjuncts := by
  cases p <;> rfl

/-- The disjuncts of a template are the templates of the disjuncts. -/
theorem disjuncts_template (p : Predicate) : p.template.disjuncts = templates p.disjuncts := by
  cases p <;> rfl

/-- The template of a conjunction is the conjunction of the templates. -/
theorem template_conj (p q : Predicate) : (p.conj q).template = p.template.conj q.template := by
  simp only [conj, template, conjuncts_template, templates_eq_map, List.map_append]

/-- The template of a disjunction is the disjunction of the templates. -/
theorem template_disj (p q : Predicate) : (p.disj q).template = p.template.disj q.template := by
  simp only [disj, template, disjuncts_template, templates_eq_map, List.map_append]

end Predicate

namespace Condition

mutual

/-- A condition with its literals blanked. -/
def template : Condition → Condition
  | .test path t => .test path t.template
  | .and a b => .and (template a) (template b)
  | .or a b => .or (template a) (template b)
  | .not x => .not (template x)
  | .all xs => .all (templates xs)
  | .any xs => .any (templates xs)

/-- Some conditions with their literals blanked. -/
def templates : List Condition → List Condition
  | [] => []
  | x :: xs => template x :: templates xs

end

mutual

/-- **The template of a condition puts the template of its predicate together,** or fails as
the condition does. -/
theorem predicate_template :
    ∀ x : Condition, x.template.predicate = Predicate.template <$> x.predicate
  | .test path t => by
    rw [template, predicate, predicate, ← Comparison.template_ofTest]
    rfl
  | .and a b => by
    simp only [template, predicate, predicate_template a, predicate_template b, map_bind,
      bind_map_left, map_pure, Predicate.template_conj]
  | .or a b => by
    simp only [template, predicate, predicate_template a, predicate_template b, map_bind,
      bind_map_left, map_pure, Predicate.template_disj]
  | .not x => by
    simp only [template, predicate, predicate_template x, map_bind, bind_map_left, map_pure,
      Predicate.template]
  | .all xs => by
    simp only [template, predicate, predicates_templates xs, map_bind, bind_map_left]
    congr 1
    funext ps
    cases ps <;> rfl
  | .any xs => by
    simp only [template, predicate, predicates_templates xs, map_bind, bind_map_left]
    congr 1
    funext ps
    cases ps <;> rfl

/-- The templates of some conditions put together the templates of the predicates. -/
theorem predicates_templates :
    ∀ xs : List Condition, predicates (templates xs) = Predicate.templates <$> predicates xs
  | [] => rfl
  | x :: xs => by
    simp only [templates, predicates, predicate_template x, predicates_templates xs, map_bind,
      bind_map_left, map_pure, Predicate.templates]

end

/-- Conditions of one template put predicates of one template together, or fail alike. -/
theorem predicate_of_template_eq {x x' : Condition} (h : x.template = x'.template) :
    (∃ e, x.predicate = .error e ∧ x'.predicate = .error e) ∨
      ∃ p p', x.predicate = .ok p ∧ x'.predicate = .ok p' ∧ p.template = p'.template := by
  have hx := congrArg predicate h
  rw [predicate_template, predicate_template] at hx
  rcases hp : x.predicate with e | p <;> rcases hp' : x'.predicate with e' | p' <;>
    rw [hp, hp'] at hx
  · exact .inl ⟨e, rfl, by rw [Except.error.inj hx]⟩
  · cases hx
  · cases hx
  · exact .inr ⟨p, p', rfl, rfl, Except.ok.inj hx⟩

end Condition

/-! ### Compiling -/

namespace Expr

/-- An expression with its literals blanked; constants are none of them. -/
def template : Expr → Expr
  | constant b => constant b
  | test c t => test c t.template
  | .and l r => .and (template l) (template r)
  | .or l r => .or (template l) (template r)
  | .not e => .not (template e)

/-- The template of a fold is the fold of the templates. -/
theorem template_foldl {f : Expr → Expr → Expr}
    (hf : ∀ l r, (f l r).template = f l.template r.template) (e : Expr) (es : List Expr) :
    (es.foldl f e).template = (es.map template).foldl f e.template := by
  induction es generalizing e with
  | nil => rfl
  | cons e' es ih => rw [List.foldl_cons, ih, hf, List.map_cons, List.foldl_cons]

/-- The template of a conjunction of expressions is that of their templates. -/
theorem template_all (es : List Expr) : (all es).template = all (es.map template) := by
  cases es with
  | nil => rfl
  | cons e es => exact template_foldl (f := .and) (fun _ _ => rfl) e es

/-- The template of a disjunction of expressions is that of their templates. -/
theorem template_any (es : List Expr) : (any es).template = any (es.map template) := by
  cases es with
  | nil => rfl
  | cons e es => exact template_foldl (f := .or) (fun _ _ => rfl) e es

end Expr

/-- Membership in nothing stays a constant: a set keeps the number of its values. -/
theorem Test.template_expr (c : ColumnRef) (t : Test ColumnRef) :
    t.template.expr c = (t.expr c).template := by
  cases t with
  | isIn vs => cases vs <;> rfl
  | notIn vs => cases vs <;> rfl
  | _ => rfl

/-- The template of a test resolves to the template of what the test resolves to. -/
theorem Test.resolve_template (scope : Scope) (t : Test Path) :
    t.template.resolve scope = template <$> t.resolve scope := by
  cases t with
  | compareWith c other =>
    simp only [template, resolve, map_bind, map_pure]
  | _ => rfl

/-- The template of a comparison becomes the template of its expression. -/
theorem Comparison.expr_template (scope : Scope) (c : Comparison) :
    c.template.expr scope = Expr.template <$> c.expr scope := by
  rcases ht : Test.of? c.operator c.operand with _ | t
  · have hc : c.template = c := by rw [template, ht]
    rw [hc, expr, map_bind]
    congr 1
    funext column
    simp only [ht]
    rfl
  · have hc : c.template = ofTest c.path t.template := by rw [template, ht]
    simp only [hc, expr, ofTest, ht, Test.of?_operator_operand, map_bind, Test.resolve_template,
      bind_map_left, map_pure, Test.template_expr]

namespace Predicate

mutual

/-- **The template of a predicate compiles to the template of its expression.** -/
theorem expr_template (scope : Scope) :
    ∀ p : Predicate, p.template.expr scope = Expr.template <$> p.expr scope
  | .comparison c => by rw [template, expr, expr, Comparison.expr_template]
  | .and ps => by
    simp only [template, expr, exprs_templates scope ps, map_bind, bind_map_left, map_pure,
      Expr.template_all]
  | .or ps => by
    simp only [template, expr, exprs_templates scope ps, map_bind, bind_map_left, map_pure,
      Expr.template_any]
  | .not p => by
    simp only [template, expr, expr_template scope p, map_bind, bind_map_left, map_pure,
      Expr.template]

/-- The templates of some predicates become the templates of their expressions. -/
theorem exprs_templates (scope : Scope) :
    ∀ ps : List Predicate, exprs scope (templates ps) = List.map Expr.template <$> exprs scope ps
  | [] => by
    rw [templates, exprs, map_pure]
    rfl
  | p :: ps => by
    simp only [templates, exprs, expr_template scope p, exprs_templates scope ps, map_bind,
      bind_map_left, map_pure, List.map_cons]

end

/-- The templates of predicates make the template of their filter. -/
theorem filter_templates (scope : Scope) (ps : List Predicate) :
    filter scope (templates ps) = Option.map Expr.template <$> filter scope ps := by
  simp only [filter_eq, exprs_templates, map_bind, bind_map_left, map_pure, List.isEmpty_map,
    apply_ite (Option.map Expr.template), Option.map_none, Option.map_some, Expr.template_all]

end Predicate
end EntityQuery
