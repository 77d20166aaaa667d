/-
# Literals of statements

The literals of an expression are those of its tests and constants, depth first and from
left to right.  In this order its tokens bind them (`Expr.literals_tokens`); a statement
binds those of its join conditions first, then those of its filter, and its bounds last
(`Select.literals_tokens`).
-/

import EntityQuery.Sql.Select

namespace EntityQuery

/-! ### Literals of tokens -/

namespace Token

@[simp]
theorem literals_nil : literals [] = [] := rfl

/-- The literals of tokens are those of the first, and then those of the others. -/
@[simp]
theorem literals_cons (t : Token) (ts : List Token) :
    literals (t :: ts) = t.literal?.toList ++ literals ts := by
  cases h : t.literal? <;> simp [literals, h]

/-- Tokens have their literals one behind the other. -/
@[simp]
theorem literals_append (ts us : List Token) : literals (ts ++ us) = literals ts ++ literals us :=
  List.filterMap_append

/-- Parentheses hold the literals of what stands in them. -/
@[simp]
theorem literals_group (ts : List Token) : literals (group ts) = literals ts := by
  simp [group, literal?]

/-- What separates parts has no literals, so the parts have them all. -/
theorem literals_separated {between : List Token} (hb : literals between = [])
    (tss : List (List Token)) : literals (separated between tss) = tss.flatMap literals := by
  induction tss with
  | nil => rfl
  | cons ts tss ih =>
    cases tss with
    | nil => simp [separated]
    | cons us tss => rw [separated, literals_append, literals_append, hb, ih]; simp

/-- The literals of a list are those of its parts. -/
@[simp]
theorem literals_commaList (tss : List (List Token)) :
    literals (commaList tss) = tss.flatMap literals :=
  literals_separated rfl tss

/-- The words of a phrase are no literals. -/
@[simp]
theorem literals_phrase (ws : List String) : literals (phrase ws) = [] := by
  rw [phrase, literals_separated rfl]
  simp [literal?]

end Token

open Token

/-! ### Expressions -/

/-- The names of a column are no literals. -/
@[simp]
theorem ColumnRef.literals_tokens (c : ColumnRef) : literals c.tokens = [] := rfl

/-- The literals of a test. -/
def Test.literals {ρ : Type} : Test ρ → List Literal
  | .isNull => []
  | .isNotNull => []
  | .compare _ v => [v]
  | .compareWith _ _ => []
  | .isIn vs => vs
  | .notIn vs => vs
  | .between low high => [low, high]
  | .notBetween low high => [low, high]
  | .like pattern => [.text (some pattern)]
  | .notLike pattern => [.text (some pattern)]

/-- The values of a list are its literals, in order. -/
theorem literals_tupleTokens (vs : List Literal) : Token.literals (tupleTokens vs) = vs := by
  simp [tupleTokens, List.flatMap_map, literal?]

/-- The literals of a test are those of its operand, in order. -/
theorem Test.literals_tokens (t : Test ColumnRef) : Token.literals t.tokens = t.literals := by
  cases t <;>
    simp [tokens, literals, intervalTokens, literals_tupleTokens, Token.literal?]

namespace Expr

/-- The literals of an expression; a constant is one. -/
def literals : Expr → List Literal
  | constant b => [.bool (some b)]
  | test _ t => t.literals
  | .and l r => literals l ++ literals r
  | .or l r => literals l ++ literals r
  | .not e => literals e

/-- **An expression binds its literals from left to right.** -/
theorem literals_tokens (e : Expr) : Token.literals e.tokens = e.literals := by
  induction e with
  | constant b => rfl
  | test c t => simp [tokens, literals, t.literals_tokens, literal?]
  | and l r ihl ihr =>
    rw [tokens]
    split <;> simp [literals, ihl, ihr, literal?]
  | or l r ihl ihr =>
    rw [tokens]
    split <;> simp [literals, ihl, ihr, literal?]
  | not e ih => simp [tokens, literals, ih, literal?]

/-- Nesting expressions to the left keeps the order of the literals. -/
theorem literals_foldl {f : Expr → Expr → Expr}
    (hf : ∀ l r, (f l r).literals = l.literals ++ r.literals) (e : Expr) (es : List Expr) :
    (es.foldl f e).literals = e.literals ++ es.flatMap literals := by
  induction es generalizing e with
  | nil => simp
  | cons e' es ih => rw [List.foldl_cons, ih, hf, List.append_assoc, List.flatMap_cons]

/-- The conjunction of a list keeps the order of the literals. -/
theorem literals_all {es : List Expr} (h : es ≠ []) : (all es).literals = es.flatMap literals := by
  cases es with
  | nil => exact absurd rfl h
  | cons e es => exact literals_foldl (fun _ _ => rfl) e es

/-- The disjunction of a list keeps the order of the literals. -/
theorem literals_any {es : List Expr} (h : es ≠ []) : (any es).literals = es.flatMap literals := by
  cases es with
  | nil => exact absurd rfl h
  | cons e es => exact literals_foldl (fun _ _ => rfl) e es

end Expr

/-! ### Statements -/

namespace Select

/-- The literals of a statement. -/
def literals (s : Select) : List Literal :=
  s.joins.flatMap (fun j => j.condition.literals) ++ s.filter.toList.flatMap Expr.literals
    ++ s.limit.toList.map (fun n => .uint64 (some n))
    ++ s.offset.toList.map (fun n => .uint64 (some n))

/-- The literals of a join are those of its condition. -/
theorem literals_join (j : Join) : Token.literals j.tokens = j.condition.literals := by
  rw [Join.tokens]
  split <;> simp [Expr.literals_tokens, literal?]

/-- The literal of a bound is its number. -/
theorem literals_bound (word : String) (n : Option UInt64) :
    Token.literals (boundTokens word n) = n.toList.map fun n => .uint64 (some n) := by
  cases n <;> rfl

/-- An ordering has no literals. -/
theorem literals_ordering (s : Select) : Token.literals s.orderingTokens = [] := by
  have hkey (k : ColumnRef × Direction) :
      Token.literals (k.1.tokens ++ [.space, .word k.2.word]) = [] := by
    simp [literal?]
  unfold orderingTokens
  split
  · rfl
  · simp [List.flatMap_map, hkey, literal?]

/-- **A statement binds its literals section by section.** -/
theorem literals_tokens (s : Select) : Token.literals s.tokens = s.literals := by
  have hcolumns : Token.literals s.columnTokens = [] := by simp [columnTokens]
  have hjoins : Token.literals (s.joins.flatMap fun j => .space :: j.tokens)
      = s.joins.flatMap fun j => j.condition.literals := by
    induction s.joins with
    | nil => rfl
    | cons j js ih => simp [ih, literals_join, literal?]
  have hfilter : Token.literals s.filterTokens = s.filter.toList.flatMap Expr.literals := by
    unfold filterTokens
    cases s.filter <;> simp [Expr.literals_tokens, literal?]
  have hdistinct : Token.literals (if s.distinct then [.word "DISTINCT", .space] else []) = [] := by
    split <;> rfl
  rw [tokens]
  simp [literals, hcolumns, hjoins, hfilter, hdistinct, literals_ordering, literals_bound, literal?]

end Select
end EntityQuery
