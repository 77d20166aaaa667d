/-
# The sets of a query

The memberships of criteria are those of their comparisons that ask whether an attribute is
one of some values, in the order of the text: those of the opened joins, then those of the
conditions, each depth first and from left to right (`Criteria.memberships`).  Compiling
keeps them in this order, and adds none (`Criteria.memberships_of_compile`).

Every one of them is rendered as a set of one element, the row of its values
(`Criteria.sets_are_rows`).  A column is compared with the whole row then, and not with each
of the values, unless there is only one.
-/

import EntityQuery.Proofs.Criteria.Opened
import EntityQuery.Proofs.Sql.Membership

namespace EntityQuery

open Token

/-! ### Memberships -/

/-- The values that a comparison asks an attribute to be one of, or none of.  Membership in
no value is a constant. -/
def Comparison.membership? (c : Comparison) : Option (List Literal) :=
  match c.operator, c.operand with
  | .isIn, .values (v :: vs) => some (v :: vs)
  | .notIn, .values (v :: vs) => some (v :: vs)
  | _, _ => none

/-- A membership has values: membership in nothing is no test. -/
theorem Comparison.membership?_ne_nil {c : Comparison} {vs : List Literal}
    (h : c.membership? = some vs) : vs ≠ [] := by
  unfold membership? at h
  split at h <;> cases h <;> exact List.cons_ne_nil _ _

/-- The memberships of some predicates. -/
def Predicate.membershipsOf (ps : List Predicate) : List (List Literal) :=
  (Predicate.leavesOf ps).filterMap Comparison.membership?

/-- The memberships of criteria, in the order of the text. -/
def Criteria.memberships (q : Criteria) : List (List Literal) :=
  q.openings.flatMap (fun o => Predicate.membershipsOf o.conditions)
    ++ Predicate.membershipsOf q.conditions

/-! ### Compiling -/

variable {column : Path → Except QueryError ColumnRef}

/-- A comparison becomes a test of its membership, if it is one. -/
theorem Comparison.memberships_of_exprAt {c : Comparison} {e : Expr}
    (h : c.exprAt column = .ok e) : e.memberships = c.membership?.toList := by
  obtain ⟨left, -, h⟩ := Except.bind_eq_ok_iff.1 h
  split at h
  · cases h
  · next t ht =>
    obtain ⟨u, hu, h⟩ := Except.bind_eq_ok_iff.1 h
    obtain rfl := Except.ok.inj h
    obtain ⟨hoperator, hoperand⟩ := Test.of?_eq_some ht
    rw [membership?, ← hoperator, ← hoperand]
    cases t with
    | compareWith _ other =>
      obtain ⟨o, -, hu⟩ := Except.bind_eq_ok_iff.1 hu
      obtain rfl := Except.ok.inj hu
      rfl
    | isIn vs =>
      obtain rfl := Except.ok.inj hu
      cases vs <;> rfl
    | notIn vs =>
      obtain rfl := Except.ok.inj hu
      cases vs <;> rfl
    | _ =>
      obtain rfl := Except.ok.inj hu
      rfl

namespace Predicate

mutual

/-- **A predicate becomes an expression of its memberships.** -/
theorem memberships_of_exprAt :
    ∀ {p : Predicate} {e : Expr}, exprAt column p = .ok e →
      e.memberships = p.leaves.filterMap Comparison.membership?
  | .comparison c, e, h => by
    rw [exprAt] at h
    rw [Comparison.memberships_of_exprAt h, leaves]
    cases hc : c.membership? <;> simp [hc]
  | .and ps, e, h => by
    obtain ⟨es, hes, rfl⟩ := exprAt_and_eq_ok.1 h
    rw [Expr.memberships_all, memberships_of_exprsAt hes, membershipsOf, leaves]
  | .or ps, e, h => by
    obtain ⟨es, hes, rfl⟩ := exprAt_or_eq_ok.1 h
    rw [Expr.memberships_any, memberships_of_exprsAt hes, membershipsOf, leaves]
  | .not p, e, h => by
    obtain ⟨f, hf, rfl⟩ := exprAt_not_eq_ok.1 h
    rw [Expr.memberships, memberships_of_exprAt hf, leaves]

/-- The expressions of some predicates have their memberships in order. -/
theorem memberships_of_exprsAt :
    ∀ {ps : List Predicate} {es : List Expr}, exprsAt column ps = .ok es →
      es.flatMap Expr.memberships = membershipsOf ps
  | [], es, h => by
    obtain rfl : [] = es := by simpa [exprsAt] using h
    rfl
  | p :: ps, es, h => by
    obtain ⟨f, fs, hf, hfs, rfl⟩ := exprsAt_cons_eq_ok.1 h
    rw [List.flatMap_cons, memberships_of_exprAt hf, memberships_of_exprsAt hfs, membershipsOf,
      membershipsOf, leavesOf, List.filterMap_append]

end

/-- A filter has the memberships of its predicates. -/
theorem memberships_of_filterAt {ps : List Predicate} {f : Option Expr}
    (h : filterAt column ps = .ok f) : f.toList.flatMap Expr.memberships = membershipsOf ps := by
  obtain ⟨es, hes, hf⟩ := Except.bind_eq_ok_iff.1 h
  obtain rfl := Except.ok.inj hf
  rw [← memberships_of_exprsAt hes]
  cases es with
  | nil => rfl
  | cons e es =>
    show [Expr.all (e :: es)].flatMap Expr.memberships = _
    rw [List.flatMap_singleton, Expr.memberships_all]

end Predicate

/-- An opened join has the memberships of its conditions. -/
theorem Opening.Emits.memberships {o : Opening} {j : Join} (h : o.Emits j) :
    j.condition.memberships = Predicate.membershipsOf o.conditions := by
  obtain ⟨f, hf, rfl⟩ := h
  rw [← Predicate.memberships_of_filterAt hf]
  cases f with
  | none => rfl
  | some e => simp [Opening.join, Opening.key, Expr.memberships, Expr.equal, Test.memberships]

/-- The conditions of joins have the memberships of the conditions that opened them. -/
theorem Opening.memberships_of_forall₂ {os : List Opening} {js : List Join}
    (h : List.Forall₂ Opening.Emits os js) :
    js.flatMap (fun j => j.condition.memberships)
      = os.flatMap fun o => Predicate.membershipsOf o.conditions := by
  induction h with
  | nil => rfl
  | cons hj _ ih => rw [List.flatMap_cons, List.flatMap_cons, hj.memberships, ih]

namespace Criteria

variable {q : Criteria} {columns : List String} {c : Compiled} {b : Backend} {query : Query}

/-- **A compiled statement has the memberships of its query.** -/
theorem memberships_of_compile (h : q.compile columns = .ok c) :
    c.statement.memberships = q.memberships := by
  obtain ⟨⟨explicit, implicit, hresolved⟩, -, -⟩ := resolved_of_compile h
  have himplicit : implicit.flatMap (fun j => j.condition.memberships) = [] := by
    rw [List.flatMap_eq_nil_iff]
    intro j hj
    obtain ⟨s, rfl⟩ := hresolved.implicit_stops j hj
    rfl
  rw [Select.memberships, hresolved.joins, List.flatMap_append,
    Opening.memberships_of_forall₂ hresolved.explicit, himplicit, List.append_nil,
    Predicate.memberships_of_filterAt hresolved.filter, memberships]

/-- A membership in no value is none. -/
theorem ne_nil_of_mem_memberships {vs : List Literal} (h : vs ∈ q.memberships) : vs ≠ [] := by
  have hleaves (ps : List Predicate) (hvs : vs ∈ Predicate.membershipsOf ps) : vs ≠ [] := by
    obtain ⟨c, -, hc⟩ := List.mem_filterMap.1 hvs
    exact Comparison.membership?_ne_nil hc
  rcases List.mem_append.1 h with h | h
  · obtain ⟨o, -, ho⟩ := List.mem_flatMap.1 h
    exact hleaves _ ho
  · exact hleaves _ h

/-- The text of a query is read as the sets of its memberships, with its literals in the
places of the placeholders. -/
theorem readSets?_query (h : q.compile columns = .ok c)
    (hb : b = .standard ∨ b = .positional) (hquery : c.query b = .ok query) :
    readSets? query.sql q.parameters = some (rowSets q.memberships) ∧
      q.parameters.mapM Literal.bind = .ok query.parameters := by
  have hliterals : Token.literals c.statement.tokens = q.parameters := by
    rw [Select.literals_tokens, literals_of_compile h]
  rw [Compiled.query, Backend.query, hliterals] at hquery
  rcases hcells : q.parameters.mapM Literal.bind with e | cells <;> rw [hcells] at hquery
  · cases hquery
  · obtain rfl := Except.ok.inj hquery
    refine ⟨?_, rfl⟩
    have hlexemes := Lexeme.lexemes_render hb c.statement.loose_tokens 1
    have htokens : Lexeme.tokens? q.parameters 1 (Token.lexemes b 1 c.statement.tokens)
        = some c.statement.tokens := Lexeme.tokens?_lexemes [] hliterals.symm
    rw [readSets?, String.toList_ofList, hlexemes, Option.bind_eq_bind, Option.bind_some]
    show (Lexeme.tokens? q.parameters 1 _).bind _ = _
    rw [htokens, Option.bind_some, c.statement.sets?_tokens, memberships_of_compile h]

/-- **Every set of a query is one row.**  Read from its text, with its parameters in the
places of the placeholders, a query has a set behind an `IN` for each of its memberships, in
order.  The set has one element: the row that holds all values of the membership.  So the
sets are lists of the values themselves if and only if every membership has a single value,
for which a row in parentheses is no more than the value. -/
theorem sets_are_rows (h : q.compile columns = .ok c) (hb : b = .standard ∨ b = .positional)
    (hquery : c.query b = .ok query) :
    q.parameters.mapM Literal.bind = .ok query.parameters ∧
      ∃ sets, readSets? query.sql q.parameters = some sets ∧
        List.Forall₂ (fun set vs => ∃ row, set = [row] ∧ IsRow row vs) sets q.memberships ∧
        (List.Forall₂ (List.Forall₂ IsScalar) sets q.memberships ↔
          ∀ vs ∈ q.memberships, vs.length = 1) := by
  obtain ⟨hsets, hparameters⟩ := readSets?_query h hb hquery
  refine ⟨hparameters, _, hsets, ?_, ?_⟩
  · rw [rowSets, List.forall₂_map_left_iff, List.forall₂_same]
    exact fun vs hvs => ⟨_, rfl, isRow_rowTokens (ne_nil_of_mem_memberships hvs)⟩
  · rw [rowSets, List.forall₂_map_left_iff, List.forall₂_same]
    simp only [forall₂_isScalar_iff]

/-- The hypotheses of `sets_are_rows` are satisfiable: owners of one name, which reads like a
set itself; dogs of neither of two ages; and, under a negation, dogs with one of two numbers,
one of them null.  All three sets are rows, and so they are not all lists of scalars. -/
theorem sets_are_rows_dogs :
    let dogs : Source := ⟨"dogs", ["id", "owner_id", "age"]⟩
    let name : Comparison := .ofTest (.ofColumn "name") (.isIn [.text (some "IN (?)")])
    let owner : JoinNode := ⟨⟨"owner", "owner_id", "id", ⟨"owners", ["id", "name"]⟩⟩, "o", "dogs",
      .left, [.comparison name], []⟩
    let age : Comparison := .ofTest (.ofColumn "age") (.notIn [.int8 (some 1), .int8 (some 2)])
    let id : Comparison := .ofTest (.ofColumn "id") (.isIn [.int64 (some 7), .int64 none])
    let q : Criteria := ⟨dogs, [.comparison age, .not (.or [.and [], .comparison id])], [],
      [owner], 0, 0, false⟩
    ∃ c query sets, q.compile ["id"] = .ok c ∧ c.query .positional = .ok query ∧
      readSets? query.sql q.parameters = some sets ∧
      List.Forall₂ (fun set vs => ∃ row, set = [row] ∧ IsRow row vs) sets
        [[.text (some "IN (?)")], [.int8 (some 1), .int8 (some 2)],
          [.int64 (some 7), .int64 none]] ∧
      ¬ List.Forall₂ (List.Forall₂ IsScalar) sets q.memberships := by
  intro dogs name owner age id q
  have hquery : ∃ c query, q.compile ["id"] = .ok c ∧ c.query .positional = .ok query :=
    ⟨_, _, rfl, rfl⟩
  obtain ⟨c, query, hc, hquery⟩ := hquery
  obtain ⟨-, sets, hsets, hrows, hscalars⟩ := sets_are_rows hc (.inr rfl) hquery
  refine ⟨c, query, sets, hc, hquery, hsets, hrows, fun hflat => ?_⟩
  have hlength := hscalars.1 hflat [.int8 (some 1), .int8 (some 2)] (by decide)
  cases hlength

/-- Dogs whose number is 1 or 2: the set of the text is a row of two values, and no list of
two scalars. -/
theorem not_scalars_dogs :
    let dogs : Source := ⟨"dogs", ["id", "name"]⟩
    let id : Comparison := .ofTest (.ofColumn "id") (.isIn [.int64 (some 1), .int64 (some 2)])
    let q : Criteria := ⟨dogs, [.comparison id], [], [], 0, 0, false⟩
    ∃ c query sets, q.compile ["id"] = .ok c ∧ c.query .standard = .ok query ∧
      query.sql = "SELECT \"dogs\".\"id\" FROM \"dogs\" WHERE (\"dogs\".\"id\") IN (($1, $2))" ∧
      readSets? query.sql q.parameters = some sets ∧
      ¬ List.Forall₂ (List.Forall₂ IsScalar) sets q.memberships := by
  intro dogs id q
  let s : Select := ⟨[⟨"dogs", "id"⟩], "dogs", [],
    some (.test ⟨"dogs", "id"⟩ (.isIn [.int64 (some 1), .int64 (some 2)])), [], false, none, none⟩
  have hc : q.compile ["id"] = .ok ⟨s, 0, 0, false⟩ := rfl
  have hquery : Compiled.query ⟨s, 0, 0, false⟩ .standard
      = .ok ⟨String.ofList (Backend.standard.render 1 s.tokens),
        [.int64 (some 1), .int64 (some 2)]⟩ := rfl
  refine ⟨_, _, _, hc, hquery, by decide, (readSets?_query hc (.inl rfl) hquery).1,
    fun hflat => ?_⟩
  have hmemberships : q.memberships = [[.int64 (some 1), .int64 (some 2)]] := rfl
  rw [hmemberships] at hflat
  obtain ⟨hset, -⟩ := List.forall₂_cons.1 hflat
  cases hset.length_eq

end Criteria
end EntityQuery
