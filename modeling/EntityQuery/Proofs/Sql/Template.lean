/-
# Templates of statements

The template of a statement is the statement with its literals and its bounds blanked.  Its
tokens are those of the statement but for the parameters (`Select.template_tokens`), and a
parameter is rendered as a placeholder, whatever its literal (`Backend.render_template`).  So
statements of one template are rendered as one text with as many parameters
(`Backend.query_of_template_eq`).
-/

import EntityQuery.Proofs.Condition.Leaves
import EntityQuery.Proofs.Predicate.Template
import EntityQuery.Proofs.Sql.Literals
import EntityQuery.Sql.Backend

namespace EntityQuery

/-! ### Tokens -/

namespace Token

/-- A token with its literal blanked. -/
def template : Token → Token
  | parameter _ => parameter .blank
  | t => t

/-- Blanking goes part by part, what separates the parts included. -/
theorem map_template_separated (between : List Token) (tss : List (List Token)) :
    (separated between tss).map template
      = separated (between.map template) (tss.map (List.map template)) := by
  induction tss with
  | nil => rfl
  | cons ts tss ih =>
    cases tss with
    | nil => rfl
    | cons us tss => simp only [separated, List.map_append, ih, List.map_cons]

/-- The words of a phrase are left as they are. -/
theorem map_template_phrase (ws : List String) : (phrase ws).map template = phrase ws := by
  rw [phrase, map_template_separated, List.map_map]
  rfl

/-- Blanking a list blanks its parts. -/
theorem map_template_commaList (tss : List (List Token)) :
    (commaList tss).map template = commaList (tss.map (List.map template)) :=
  map_template_separated _ _

/-- Blanking goes on in parentheses. -/
theorem map_template_group (ts : List Token) :
    (group ts).map template = group (ts.map template) := by
  simp [group, template]

/-- The values of a list are blanked, and as many are left. -/
theorem map_template_tuple (vs : List Literal) :
    (tupleTokens vs).map template = tupleTokens (vs.map fun _ => .blank) := by
  simp only [tupleTokens, map_template_group, map_template_commaList, List.map_map]
  rfl

/-- Blanking loses no literal. -/
theorem length_literals_template (ts : List Token) :
    (literals (ts.map template)).length = (literals ts).length := by
  induction ts with
  | nil => rfl
  | cons t ts ih => cases t <;> simp [template, literal?, ih]

end Token

open Token

/-! ### Expressions -/

/-- A test with its literals blanked has the tokens of the test, blanked. -/
theorem Test.template_tokens (t : Test ColumnRef) :
    t.template.tokens.map Token.template = t.tokens.map Token.template := by
  cases t <;>
    simp [tokens, template, map_template_phrase, map_template_group, map_template_tuple,
      intervalTokens, Token.template]

namespace Expr

/-- Blanking leaves a conjunction one. -/
theorem isAnd_template (e : Expr) : e.template.isAnd = e.isAnd := by cases e <;> rfl

/-- Blanking leaves a disjunction one. -/
theorem isOr_template (e : Expr) : e.template.isOr = e.isOr := by cases e <;> rfl

/-- **Blanking an expression changes none of its tokens but the parameters.** -/
theorem template_tokens (e : Expr) :
    e.template.tokens.map Token.template = e.tokens.map Token.template := by
  induction e with
  | constant b => rfl
  | test c t => simp [template, tokens, map_template_group, t.template_tokens, Token.template]
  | and l r ihl ihr =>
    rw [template, tokens, tokens, isAnd_template]
    split <;> simp [map_template_group, ihl, ihr]
  | or l r ihl ihr =>
    rw [template, tokens, tokens, isOr_template]
    split <;> simp [map_template_group, ihl, ihr]
  | not e ih => simp [template, tokens, map_template_group, ih]

end Expr

/-! ### Statements -/

/-- A join with its literals blanked. -/
def Join.template (j : Join) : Join := { j with condition := j.condition.template }

/-- A join with its literals blanked has the tokens of the join, blanked. -/
theorem Join.template_tokens (j : Join) :
    j.template.tokens.map Token.template = j.tokens.map Token.template := by
  simp only [template, tokens, List.map_append, List.map_cons, Expr.template_tokens]
  rfl

namespace Select

/-- A statement with its literals and its bounds blanked. -/
def template (s : Select) : Select :=
  { s with
    joins := s.joins.map Join.template
    filter := s.filter.map Expr.template
    limit := s.limit.map fun _ => 0
    offset := s.offset.map fun _ => 0 }

/-- **Blanking a statement changes none of its tokens but the parameters.** -/
theorem template_tokens (s : Select) :
    s.template.tokens.map Token.template = s.tokens.map Token.template := by
  have hjoins : (s.template.joins.flatMap fun j => .space :: j.tokens).map Token.template
      = (s.joins.flatMap fun j => .space :: j.tokens).map Token.template := by
    simp only [template, List.flatMap_map, List.map_flatMap, List.map_cons, Join.template_tokens]
  have hfilter :
      s.template.filterTokens.map Token.template = s.filterTokens.map Token.template := by
    unfold filterTokens template
    cases s.filter <;> simp [Expr.template_tokens]
  have hbound (word : String) (n : Option UInt64) :
      (boundTokens word (n.map fun _ => 0)).map Token.template
        = (boundTokens word n).map Token.template := by
    cases n <;> rfl
  simp only [tokens, List.map_append, List.map_cons, hjoins, hfilter]
  simp only [template, hbound]
  rfl

end Select

/-! ### Rendering -/

/-- Each literal is bound to a cell of its own. -/
theorem Literal.length_of_mapM_bind {vs : List Literal} {cells : List Cell}
    (h : vs.mapM bind = .ok cells) : cells.length = vs.length :=
  (Except.mapM_eq_ok_iff.1 h).length_eq.symm

namespace Backend

variable {b : Backend} {ts us : List Token} {query query' : Query}

/-- **Placeholders do not show their literals.** -/
theorem render_template (b : Backend) (n : Nat) (ts : List Token) :
    b.render n (ts.map Token.template) = b.render n ts := by
  induction ts generalizing n with
  | nil => rfl
  | cons t ts ih =>
    rw [List.map_cons, render, render, ih]
    cases t <;> rfl

/-- A query has the text of its tokens, and a parameter for each literal. -/
theorem eq_of_query_eq_ok (h : b.query ts = .ok query) :
    query.sql = String.ofList (b.render 1 ts) ∧
      query.parameters.length = (Token.literals ts).length := by
  rw [Backend.query] at h
  rcases hcells : (Token.literals ts).mapM Literal.bind with e | cells <;> rw [hcells] at h
  · cases h
  · obtain rfl := Except.ok.inj h
    exact ⟨rfl, Literal.length_of_mapM_bind hcells⟩

/-- Tokens that differ in literals only make queries that differ in parameters only. -/
theorem query_of_template_eq (h : ts.map Token.template = us.map Token.template)
    (hts : b.query ts = .ok query) (hus : b.query us = .ok query') :
    query.sql = query'.sql ∧ query.parameters.length = query'.parameters.length := by
  obtain ⟨hsql, hlength⟩ := eq_of_query_eq_ok hts
  obtain ⟨hsql', hlength'⟩ := eq_of_query_eq_ok hus
  constructor
  · rw [hsql, hsql', ← render_template, h, render_template]
  · rw [hlength, hlength', ← length_literals_template, h, length_literals_template]

end Backend

namespace Select

/-- **Statements of one template have one text** on every backend, and as many parameters. -/
theorem query_of_template_eq {s s' : Select} (h : s.template = s'.template) {b : Backend}
    {query query' : Query} (hs : b.query s.tokens = .ok query)
    (hs' : b.query s'.tokens = .ok query') :
    query.sql = query'.sql ∧ query.parameters.length = query'.parameters.length :=
  Backend.query_of_template_eq (by rw [← s.template_tokens, h, s'.template_tokens]) hs hs'

end Select
end EntityQuery
