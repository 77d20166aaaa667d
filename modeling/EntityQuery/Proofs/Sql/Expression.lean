/-
# Expressions are read back

Written expressions are items again: a chain of one connective is a row of parentheses
with the connective between them, and everything else is one test, one negation or one
value (`Expr.items`).  Reading such a row gives back the expression
(`Expr.ofItems?_items`), and so does reading its tokens (`Expr.reads`), in parentheses or
not.
-/

import EntityQuery.Proofs.Sql.Item

namespace EntityQuery

/-! ### Tests -/

/-- A column as it is written. -/
def ColumnRef.items (c : ColumnRef) : List Item := [.name c.qualifier, .dot, .name c.name]

/-- A list of values as it is written. -/
def valueItems (vs : List Literal) : List Item :=
  [Item.comma].intercalate (vs.map fun v => [.parameter v])

/-- A test as it is written behind its column. -/
def Test.items : Test ColumnRef → List Item
  | .isNull => [.word "IS", .group .null]
  | .isNotNull => [.word "IS", .word "NOT", .group .null]
  | .compare c v => [.word c.symbol, .group (.values [v])]
  | .compareWith c other => [.word c.symbol, .group (.column other)]
  | .isIn vs => [.word "IN", .group (.tuple vs)]
  | .notIn vs => [.word "NOT", .word "IN", .group (.tuple vs)]
  | .between low high =>
    [.word "BETWEEN", .group (.values [low]), .word "AND", .group (.values [high])]
  | .notBetween low high =>
    [.word "NOT", .word "BETWEEN", .group (.values [low]), .word "AND", .group (.values [high])]
  | .like pattern => [.word "LIKE", .group (.values [.text (some pattern)])]
  | .notLike pattern => [.word "NOT", .word "LIKE", .group (.values [.text (some pattern)])]

/-- What is written between commas is read part by part. -/
theorem commaSeparated?_intercalate {α : Type} {one : List Item → Option α}
    {f : α → List Item} (xs : List α) (hone : ∀ x, one (f x) = some x)
    (hcomma : ∀ x, .comma ∉ f x) (hne : ∀ x, f x ≠ []) :
    commaSeparated? one ([Item.comma].intercalate (xs.map f)) = some xs := by
  have hmap : (xs.map f).mapM one = some xs := by
    induction xs with
    | nil => rfl
    | cons x xs ih =>
      rw [List.map_cons, List.mapM_cons, hone, ih]
      rfl
  cases xs with
  | nil => rfl
  | cons x xs =>
    have hsplit : ([Item.comma].intercalate ((x :: xs).map f)).splitOn .comma = (x :: xs).map f :=
      List.splitOn_intercalate _ (fun l hl => by
        obtain ⟨y, -, rfl⟩ := List.mem_map.1 hl
        exact hcomma y) (by simp)
    rw [commaSeparated?.eq_def]
    split
    · next hnil =>
      -- no part is empty, so the whole is not
      rw [hnil] at hsplit
      have hx : f x = [] := by
        have := congrArg List.head? hsplit
        simpa using this.symm
      exact absurd hx (hne x)
    · rw [hsplit, hmap]

/-- A column is read back. -/
theorem ColumnRef.ofItems?_items (c : ColumnRef) : ofItems? c.items = some c := rfl

/-- A list of values in parentheses is read back. -/
theorem Content.ofItems?_valueItems (vs : List Literal) :
    Content.ofItems? (valueItems vs) = some (.values vs) := by
  have h : commaSeparated? Literal.ofItems? (valueItems vs) = some vs :=
    commaSeparated?_intercalate vs (fun _ => rfl) (by simp) (by simp)
  cases vs with
  | nil => rfl
  | cons v vs =>
    obtain ⟨rest, hrest⟩ : ∃ rest, valueItems (v :: vs) = .parameter v :: rest := by
      cases vs with
      | nil => exact ⟨[], rfl⟩
      | cons w ws => exact ⟨_, List.intercalate_cons_cons ..⟩
    rw [hrest] at h ⊢
    rw [Content.ofItems?, h]
    rfl

/-- **A test is read back.** -/
theorem Test.ofItems?_items (t : Test ColumnRef) : ofItems? t.items = some t := by
  cases t with
  | compare c v => cases c <;> rfl
  | compareWith c other => cases c <;> rfl
  | _ => rfl

/-- The tokens of a column are read as its items. -/
theorem ColumnRef.reads (c : ColumnRef) : Reads c.tokens c.items :=
  ((Reads.nil.name c.name).dot).name c.qualifier

/-- A column in parentheses is read as one item. -/
theorem reads_column (c : ColumnRef) : Reads (Token.group c.tokens) [.group (.column c)] :=
  c.reads.group rfl

/-- A placeholder in parentheses is read as a list of one value. -/
theorem reads_value (v : Literal) :
    Reads (Token.group [.parameter v]) [.group (.values [v])] :=
  (Reads.nil.parameter v).group (Content.ofItems?_valueItems [v])

/-- The values of a membership are read as a list in parentheses of its own. -/
theorem reads_tuple (vs : List Literal) :
    Reads (Token.group (tupleTokens vs)) [.group (.tuple vs)] := by
  have hvalues : Reads (Token.commaList (vs.map fun v => [.parameter v])) (valueItems vs) :=
    .commaList vs fun v _ => Reads.nil.parameter v
  exact (hvalues.group (Content.ofItems?_valueItems vs)).group rfl

/-- The ends of an interval are read as two values with `AND` between them. -/
theorem reads_interval (low high : Literal) :
    Reads (intervalTokens low high)
      [.group (.values [low]), .word "AND", .group (.values [high])] :=
  (reads_value low).append ((reads_value high).space.word "AND").space

/-- Behind the words of a test comes its operand. -/
theorem reads_operator {ws : List String} {ts : List Token} {is : List Item}
    (h : Reads ts is) : Reads (Token.phrase ws ++ .space :: ts) (ws.map .word ++ is) :=
  (Reads.phrase ws).append h.space

/-- **The tokens of a test are read as its items.** -/
theorem Test.reads (t : Test ColumnRef) : Reads t.tokens t.items := by
  have hnull : Reads (Token.group [.word "NULL"]) [.group .null] :=
    (Reads.nil.word "NULL").group rfl
  cases t with
  | isNull => exact reads_operator hnull
  | isNotNull => exact reads_operator hnull
  | compare c v => exact reads_operator (reads_value v)
  | compareWith c other => exact reads_operator (reads_column other)
  | isIn vs => exact reads_operator (reads_tuple vs)
  | notIn vs => exact reads_operator (reads_tuple vs)
  | between low high => exact reads_operator (reads_interval low high)
  | notBetween low high => exact reads_operator (reads_interval low high)
  | like pattern => exact reads_operator (reads_value _)
  | notLike pattern => exact reads_operator (reads_value _)

/-! ### Expressions -/

namespace Expr

/-- An expression as it stands in parentheses. -/
def content : Expr → Content
  | constant b => .values [.bool (some b)]
  | e => .expr e

/-- An expression as it is written. -/
def items : Expr → List Item
  | constant b => [.parameter (.bool (some b))]
  | test c t => .group (.column c) :: t.items
  | .and l r =>
    (if l.isAnd then l.items else [.group l.content]) ++ [.word "AND", .group r.content]
  | .or l r =>
    (if l.isOr then l.items else [.group l.content]) ++ [.word "OR", .group r.content]
  | .not e => [.word "NOT", .group e.content]

/-- What stands in parentheses for an expression is read as the expression. -/
@[simp]
theorem toExpr?_content (e : Expr) : e.content.toExpr? = some e := by cases e <;> rfl

/-- Behind an expression in parentheses, a connective starts a chain. -/
theorem ofItems?_group_and (l : Expr) (rest : List Item) :
    ofItems? (.group l.content :: .word "AND" :: rest) =
      chain? "AND" .and l (.word "AND" :: rest) := by
  cases l <;> rfl

/-- Behind an expression in parentheses, the other connective starts a chain as well. -/
theorem ofItems?_group_or (l : Expr) (rest : List Item) :
    ofItems? (.group l.content :: .word "OR" :: rest) =
      chain? "OR" .or l (.word "OR" :: rest) := by
  cases l <;> rfl

/-- A conjunction is read as the beginning of a longer one. -/
theorem ofItems?_items_and (l r : Expr) (rest : List Item) :
    ofItems? ((Expr.and l r).items ++ rest) = chain? "AND" .and (.and l r) rest := by
  induction l generalizing r rest with
  | and l₁ l₂ ih₁ _ =>
    have h := ih₁ l₂ (.word "AND" :: .group r.content :: rest)
    simp only [items, isAnd, if_true, List.append_assoc, List.cons_append, List.nil_append] at h ⊢
    rw [h]
    simp [chain?]
  | _ =>
    simp only [items, isAnd, Bool.false_eq_true, if_false, List.cons_append, List.nil_append]
    rw [ofItems?_group_and]
    simp [chain?]

/-- A disjunction is read as the beginning of a longer one. -/
theorem ofItems?_items_or (l r : Expr) (rest : List Item) :
    ofItems? ((Expr.or l r).items ++ rest) = chain? "OR" .or (.or l r) rest := by
  induction l generalizing r rest with
  | or l₁ l₂ ih₁ _ =>
    have h := ih₁ l₂ (.word "OR" :: .group r.content :: rest)
    simp only [items, isOr, if_true, List.append_assoc, List.cons_append, List.nil_append] at h ⊢
    rw [h]
    simp [chain?]
  | _ =>
    simp only [items, isOr, Bool.false_eq_true, if_false, List.cons_append, List.nil_append]
    rw [ofItems?_group_or]
    simp [chain?]

/-- **An expression is read back.** -/
theorem ofItems?_items (e : Expr) : ofItems? e.items = some e := by
  cases e with
  | constant b => rfl
  | test c t =>
    rw [items, ofItems?, Test.ofItems?_items]
    rfl
  | and l r => simpa [chain?] using ofItems?_items_and l r []
  | or l r => simpa [chain?] using ofItems?_items_or l r []
  | not e => simp [items, ofItems?]

/-- A conjunction is written as parentheses and the word behind them. -/
theorem head_items_and (l r : Expr) :
    ∃ g rest, (Expr.and l r).items = .group g :: .word "AND" :: rest := by
  induction l generalizing r with
  | and l₁ l₂ ih _ =>
    obtain ⟨g, rest, h⟩ := ih l₂
    exact ⟨g, rest ++ [.word "AND", .group r.content], by rw [items, isAnd, if_pos rfl, h]; rfl⟩
  | _ => exact ⟨_, _, rfl⟩

/-- A disjunction is written as parentheses and the word behind them. -/
theorem head_items_or (l r : Expr) :
    ∃ g rest, (Expr.or l r).items = .group g :: .word "OR" :: rest := by
  induction l generalizing r with
  | or l₁ l₂ ih _ =>
    obtain ⟨g, rest, h⟩ := ih l₂
    exact ⟨g, rest ++ [.word "OR", .group r.content], by rw [items, isOr, if_pos rfl, h]; rfl⟩
  | _ => exact ⟨_, _, rfl⟩

/-- Parentheses with more behind them are read as an expression. -/
theorem ofItems?_group_cons (g : Content) (i : Item) (rest : List Item) :
    Content.ofItems? (.group g :: i :: rest)
      = (ofItems? (.group g :: i :: rest)).map .expr := by
  cases g <;> rfl

/-- **What an expression puts in parentheses is read back.** -/
theorem ofItems?_content (e : Expr) : Content.ofItems? e.items = some e.content := by
  cases e with
  | constant b => exact Content.ofItems?_valueItems [.bool (some b)]
  | test c t =>
    obtain ⟨i, rest, h⟩ : ∃ i rest, (Expr.test c t).items = .group (.column c) :: i :: rest := by
      cases t <;> exact ⟨_, _, rfl⟩
    rw [h, ofItems?_group_cons, ← h, ofItems?_items]
    rfl
  | and l r =>
    obtain ⟨g, rest, h⟩ := head_items_and l r
    rw [h, ofItems?_group_cons, ← h, ofItems?_items]
    rfl
  | or l r =>
    obtain ⟨g, rest, h⟩ := head_items_or l r
    rw [h, ofItems?_group_cons, ← h, ofItems?_items]
    rfl
  | not e =>
    have h : Content.ofItems? (Expr.not e).items = (ofItems? (Expr.not e).items).map .expr := rfl
    rw [h, ofItems?_items]
    rfl

/-- **The tokens of an expression are read as its items.** -/
theorem reads : ∀ e : Expr, Reads e.tokens e.items
  | .constant b => Reads.nil.parameter _
  | .test c t => (reads_column c).append t.reads.space
  | .and l r => by
    have hl : Reads (if l.isAnd then l.tokens else Token.group l.tokens)
        (if l.isAnd then l.items else [.group l.content]) := by
      split
      · exact l.reads
      · exact l.reads.group l.ofItems?_content
    exact hl.append ((r.reads.group r.ofItems?_content).space.word "AND").space
  | .or l r => by
    have hl : Reads (if l.isOr then l.tokens else Token.group l.tokens)
        (if l.isOr then l.items else [.group l.content]) := by
      split
      · exact l.reads
      · exact l.reads.group l.ofItems?_content
    exact hl.append ((r.reads.group r.ofItems?_content).space.word "OR").space
  | .not e => (e.reads.group e.ofItems?_content).space.word "NOT"

end Expr
end EntityQuery
