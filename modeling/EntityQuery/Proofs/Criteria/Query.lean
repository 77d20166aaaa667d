/-
# Queries bind their parameters in order

A compiled query is rendered with as many placeholders as it has parameters.  The
placeholders are numbered in the order of the text, and the parameters are the cells of the
literals in the order of the criteria, so the two stay aligned (`Criteria.query_parameters`)
whatever the criteria look like.  A literal without a cell makes all backends fail alike,
the first one in the same order.
-/

import EntityQuery.Proofs.Criteria.Parameters
import EntityQuery.Proofs.Sql.Placeholder

namespace EntityQuery

/-- Each literal with a cell has one. -/
theorem Literal.length_of_mapM {vs : List Literal} {cells : List Cell}
    (h : vs.mapM cell? = some cells) : cells.length = vs.length := by
  induction vs generalizing cells with
  | nil =>
    obtain rfl : [] = cells := by simpa using h
    rfl
  | cons v vs ih =>
    rw [List.mapM_cons] at h
    obtain ⟨c, -, h⟩ := Option.bind_eq_some_iff.1 h
    obtain ⟨cs, hcs, h⟩ := Option.bind_eq_some_iff.1 h
    obtain rfl := Option.some.inj h
    rw [List.length_cons, List.length_cons, ih hcs]

namespace Select

variable {s : Select} {vs before after : List Literal} {v : Literal} {cells : List Cell}

/-- Asking whether a statement has rows binds what the statement binds. -/
theorem literals_existsTokens (s : Select) : Token.literals s.existsTokens = s.literals := by
  rw [existsTokens, Token.literals_append, Token.literals_phrase, Token.literals_group,
    List.nil_append, literals_tokens]

/-- A statement whose literals all have cells is rendered with these. -/
theorem query_eq_ok (h : s.literals.mapM Literal.cell? = some cells) (b : Backend) :
    b.query s.tokens = .ok ⟨String.ofList (b.render 1 s.tokens), cells⟩ ∧
      b.query s.existsTokens
        = .ok ⟨"SELECT EXISTS(" ++ String.ofList (b.render 1 s.tokens) ++ ")", cells⟩ := by
  have hbind := Literal.mapM_bind_eq_ok h
  constructor
  · rw [Backend.query, literals_tokens, hbind]
    rfl
  · rw [Backend.query, literals_existsTokens, hbind, b.render_existsTokens]
    rfl

/-- A statement with a literal that has no cell is not rendered. -/
theorem query_eq_error (h : s.literals = before ++ v :: after)
    (hbefore : ∀ u ∈ before, u.cell? ≠ none) (hv : v.cell? = none) (b : Backend) :
    b.query s.tokens = .error (.unsupportedValue v) ∧
      b.query s.existsTokens = .error (.unsupportedValue v) := by
  have hbind := Literal.mapM_bind_eq_error after hbefore hv
  constructor
  · rw [Backend.query, literals_tokens, h, hbind]
    rfl
  · rw [Backend.query, literals_existsTokens, h, hbind]
    rfl

end Select

namespace Criteria

/-- **Placeholders and parameters are aligned.**  For criteria that compile: if all of
their literals have cells, the query binds these in the order of the criteria; its
placeholders are numbered from 1 on in the order of the text, one for each; rendered
without numbers, the text is the same but for the placeholders; and asking whether there is
any row keeps text, numbers and cells.  If not, rendering fails for the first literal
without a cell. -/
theorem query_parameters {q : Criteria} {columns : List String} {c : Compiled}
    (h : q.compile columns = .ok c) :
    (∀ cells, q.parameters.mapM Literal.cell? = some cells → ∃ sql anonymousSql,
      c.query .standard = .ok ⟨sql, cells⟩ ∧
      Lexeme.numbers sql = some ((List.range cells.length).map fun i => some (i + 1)) ∧
      c.query .positional = .ok ⟨anonymousSql, cells⟩ ∧
      Lexeme.rewrite id sql = some sql ∧
      Lexeme.rewrite Lexeme.anonymous sql = some anonymousSql ∧
      Backend.standard.query c.statement.existsTokens
        = .ok ⟨"SELECT EXISTS(" ++ sql ++ ")", cells⟩ ∧
      Backend.positional.query c.statement.existsTokens
        = .ok ⟨"SELECT EXISTS(" ++ anonymousSql ++ ")", cells⟩) ∧
    (∀ before v after, q.parameters = before ++ v :: after →
      (∀ u ∈ before, u.cell? ≠ none) → v.cell? = none → ∀ b : Backend,
        c.query b = .error (.unsupportedValue v) ∧
        b.query c.statement.existsTokens = .error (.unsupportedValue v)) := by
  have hliterals := literals_of_compile h
  have hloose := c.statement.loose_tokens
  constructor
  · intro cells hcells
    rw [← hliterals] at hcells
    have hnumbers := Lexeme.numbers_render hloose
    rw [Select.literals_tokens, ← Literal.length_of_mapM hcells] at hnumbers
    obtain ⟨hstandard, hstandardExists⟩ := Select.query_eq_ok hcells .standard
    obtain ⟨hpositional, hpositionalExists⟩ := Select.query_eq_ok hcells .positional
    exact ⟨_, _, hstandard, hnumbers, hpositional, Lexeme.rewrite_id_render (.inl rfl) hloose,
      Lexeme.rewrite_anonymous_render hloose, hstandardExists, hpositionalExists⟩
  · intro before v after hparameters hbefore hv b
    exact Select.query_eq_error (hliterals.trans hparameters) hbefore hv b

/-- The hypotheses of `query_parameters` are satisfiable: criteria over dogs with a joined
owner, an empty membership behind an empty conjunction, and a window of rows; and the same
with a literal that has no cell. -/
theorem query_parameters_dogs :
    let dogs : Source := ⟨"dogs", ["id", "name", "age"]⟩
    let owner : JoinNode := ⟨⟨"owner", "owner_id", "id", ⟨"owners", ["id", "name"]⟩⟩, "o", "dogs",
      .left, [.comparison (.ofTest (.ofColumn "name") (.like "a?$1"))], []⟩
    let age (t : Test Path) : Predicate := .comparison (.ofTest (.ofColumn "age") t)
    let q : Criteria := ⟨dogs, [.and [], .or [age (.between (.int8 (some 1)) (.int8 (some 9))),
      .not (age (.isIn []))]], [], [owner], 5, 10, true⟩
    let q' : Criteria := { q with conditions := [age (.notIn [.char none, .localInstant])] }
    let cells : List Cell := [.text (some "a?$1"), .bool (some true), .int32 (some 1),
      .int32 (some 9), .bool (some false), .uint64 (some 10), .uint64 (some 5)]
    (∃ c sql, q.compile ["name"] = .ok c ∧ c.query .standard = .ok ⟨sql, cells⟩ ∧
      Lexeme.numbers sql
        = some [some 1, some 2, some 3, some 4, some 5, some 6, some 7]) ∧
    ∃ c, q'.compile ["name"] = .ok c ∧
      ∀ b : Backend, c.query b = .error (.unsupportedValue .localInstant) := by
  intro dogs owner age q q' cells
  have hq : ∃ c, q.compile ["name"] = .ok c := ⟨_, rfl⟩
  have hq' : ∃ c, q'.compile ["name"] = .ok c := ⟨_, rfl⟩
  obtain ⟨c, hc⟩ := hq
  obtain ⟨c', hc'⟩ := hq'
  obtain ⟨sql, -, hsql, hnumbers, -⟩ := (query_parameters hc).1 cells rfl
  refine ⟨⟨c, sql, hc, hsql, hnumbers⟩, c', hc', fun b => ?_⟩
  exact ((query_parameters hc').2 [.text (some "a?$1"), .char none] .localInstant
    [.uint64 (some 10), .uint64 (some 5)] rfl (by decide) rfl b).1

end Criteria
end EntityQuery
