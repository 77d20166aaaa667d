/-
# Reading expressions

The tokens of a statement are read from left to right.  What stands between two
parentheses is read as soon as they close: it is a column, `NULL`, a list of values, such
a list in parentheses of its own, or an expression (`Content`).  So an expression is only
ever read from items none of which is a parenthesis (`Expr.ofItems?`), and no connective
binds stronger than another: a chain holds one connective alone, grouped from the left, and
the `AND` of an interval stands where a test is read.

Reading follows the text: `Reads ts is` says that the tokens `ts` add the items `is`,
whatever has been read before.
-/

import EntityQuery.Sql.Token
import Mathlib.Data.List.Basic

namespace EntityQuery

/-- What stands in parentheses. -/
inductive Content
  | null
  | column (c : ColumnRef)
  | values (vs : List Literal)
  | tuple (vs : List Literal)
  | expr (e : Expr)
deriving DecidableEq

/-- A part of a text in which all parentheses have been read. -/
inductive Item
  | word (letters : String)
  | comma
  | dot
  | name (identifier : String)
  | parameter (value : Literal)
  | group (content : Content)
deriving DecidableEq

/-! ### Readers of items -/

/-- Reads the parts between commas. -/
def commaSeparated? {α : Type} (one : List Item → Option α) : List Item → Option (List α)
  | [] => some []
  | items => (items.splitOn .comma).mapM one

/-- Reads a qualified column. -/
def ColumnRef.ofItems? : List Item → Option ColumnRef
  | [.name q, .dot, .name n] => some ⟨q, n⟩
  | _ => none

/-- Reads a value. -/
def Literal.ofItems? : List Item → Option Literal
  | [.parameter v] => some v
  | _ => none

/-- Reads a comparator. -/
def Comparator.ofSymbol? (w : String) : Option Comparator :=
  [eq, ne, gt, ge, lt, le].find? fun c => c.symbol = w

/-- Reads a test behind its column. -/
def Test.ofItems? : List Item → Option (Test ColumnRef)
  | [.word "IS", .group .null] => some .isNull
  | [.word "IS", .word "NOT", .group .null] => some .isNotNull
  | [.word "IN", .group (.tuple vs)] => some (.isIn vs)
  | [.word "NOT", .word "IN", .group (.tuple vs)] => some (.notIn vs)
  | [.word "BETWEEN", .group (.values [low]), .word "AND", .group (.values [high])] =>
    some (.between low high)
  | [.word "NOT", .word "BETWEEN", .group (.values [low]), .word "AND",
      .group (.values [high])] => some (.notBetween low high)
  | [.word "LIKE", .group (.values [.text (some pattern)])] => some (.like pattern)
  | [.word "NOT", .word "LIKE", .group (.values [.text (some pattern)])] =>
    some (.notLike pattern)
  | [.word w, .group (.values [v])] => (Comparator.ofSymbol? w).map fun c => .compare c v
  | [.word w, .group (.column other)] =>
    (Comparator.ofSymbol? w).map fun c => .compareWith c other
  | _ => none

/-- The expression that stands in parentheses. -/
def Content.toExpr? : Content → Option Expr
  | .expr e => some e
  | .values [.bool (some b)] => some (.constant b)
  | _ => none

namespace Expr

/-- Reads the rest of a chain of one connective behind an expression. -/
def chain? (connective : String) (join : Expr → Expr → Expr) : Expr → List Item → Option Expr
  | e, [] => some e
  | e, .word w :: .group g :: rest =>
    if w = connective then g.toExpr?.bind fun r => chain? connective join (join e r) rest
    else none
  | _, _ => none

/-- Reads an expression. -/
def ofItems? : List Item → Option Expr
  | [.parameter (.bool (some b))] => some (.constant b)
  | [.word "NOT", .group g] => g.toExpr?.map .not
  | .group (.column c) :: rest => (Test.ofItems? rest).map (.test c)
  | .group g :: .word "AND" :: rest =>
    g.toExpr?.bind fun e => chain? "AND" .and e (.word "AND" :: rest)
  | .group g :: .word "OR" :: rest =>
    g.toExpr?.bind fun e => chain? "OR" .or e (.word "OR" :: rest)
  | _ => none

end Expr

/-- Reads what stands in parentheses. -/
def Content.ofItems? : List Item → Option Content
  | [.word "NULL"] => some .null
  | [.name q, .dot, .name n] => some (.column ⟨q, n⟩)
  | [.group (.values vs)] => some (.tuple vs)
  | [] => some (.values [])
  | .parameter v :: rest =>
    (commaSeparated? Literal.ofItems? (.parameter v :: rest)).map .values
  | items => (Expr.ofItems? items).map .expr

/-! ### Reading tokens -/

/-- The items read since the last open parenthesis, and those read before each of the
parentheses that are still open. -/
abbrev Reading := List Item × List (List Item)

/-- Reads a token.  A closing parenthesis has what it closes read. -/
def Reading.shift (r : Reading) : Token → Option Reading
  | .space => some r
  | .word w => some (r.1 ++ [.word w], r.2)
  | .comma => some (r.1 ++ [.comma], r.2)
  | .dot => some (r.1 ++ [.dot], r.2)
  | .name s => some (r.1 ++ [.name s], r.2)
  | .parameter v => some (r.1 ++ [.parameter v], r.2)
  | .openParen => some ([], r.1 :: r.2)
  | .closeParen =>
    match r.2 with
    | [] => none
    | outer :: rest => (Content.ofItems? r.1).map fun g => (outer ++ [.group g], rest)

/-- The items of some tokens, if their parentheses match. -/
def Token.items? (ts : List Token) : Option (List Item) :=
  match ts.foldlM Reading.shift ([], []) with
  | some (items, []) => some items
  | _ => none

/-- Tokens that add some items to whatever has been read before. -/
def Reads (ts : List Token) (items : List Item) : Prop :=
  ∀ r : Reading, ts.foldlM Reading.shift r = some (r.1 ++ items, r.2)

namespace Reads

variable {ts us : List Token} {is js : List Item}

/-- The items of a text are those that its tokens add to nothing. -/
theorem items? (h : Reads ts is) : Token.items? ts = some is := by
  rw [Token.items?, h ([], [])]
  rfl

/-- Without tokens no item is added. -/
theorem nil : Reads [] [] := fun r => by simp

/-- **Texts are read one behind the other.** -/
theorem append (hts : Reads ts is) (hus : Reads us js) : Reads (ts ++ us) (is ++ js) := by
  intro r
  rw [List.foldlM_append, hts r, Option.bind_eq_bind, Option.bind_some, hus]
  simp

/-- Blanks add nothing. -/
theorem space (h : Reads ts is) : Reads (.space :: ts) is := h

/-- A token that adds an item adds it in front of those behind it. -/
theorem cons {t : Token} {i : Item} (ht : ∀ r, Reading.shift r t = some (r.1 ++ [i], r.2))
    (h : Reads ts is) : Reads (t :: ts) (i :: is) := by
  intro r
  rw [List.foldlM_cons, ht, Option.bind_eq_bind, Option.bind_some, h]
  simp

/-- A word is read as itself. -/
theorem word (w : String) (h : Reads ts is) : Reads (.word w :: ts) (.word w :: is) :=
  h.cons fun _ => rfl

/-- A comma is read as itself. -/
theorem comma (h : Reads ts is) : Reads (.comma :: ts) (.comma :: is) := h.cons fun _ => rfl

/-- A dot is read as itself. -/
theorem dot (h : Reads ts is) : Reads (.dot :: ts) (.dot :: is) := h.cons fun _ => rfl

/-- A name is read as itself. -/
theorem name (s : String) (h : Reads ts is) : Reads (.name s :: ts) (.name s :: is) :=
  h.cons fun _ => rfl

/-- A placeholder is read as its value. -/
theorem parameter (v : Literal) (h : Reads ts is) :
    Reads (.parameter v :: ts) (.parameter v :: is) := h.cons fun _ => rfl

/-- **Parentheses make one item of what they hold.** -/
theorem group {g : Content} (h : Reads ts is) (hg : Content.ofItems? is = some g) :
    Reads (Token.group ts) [.group g] := by
  intro r
  have hclose : Reading.shift (is, r.1 :: r.2) .closeParen = some (r.1 ++ [.group g], r.2) := by
    simp [Reading.shift, hg]
  show (ts ++ [Token.closeParen]).foldlM Reading.shift ([], r.1 :: r.2) = _
  rw [List.foldlM_append, h, Option.bind_eq_bind, Option.bind_some, List.foldlM_cons]
  simp [hclose]

/-- The words of a phrase are read one by one, without the blanks between them. -/
theorem phrase (ws : List String) : Reads (Token.phrase ws) (ws.map .word) := by
  induction ws with
  | nil => exact nil
  | cons w ws ih =>
    cases ws with
    | nil => exact word w nil
    | cons v ws => exact word w ih.space

/-- Commas stand between the items as they do between the tokens. -/
theorem commaList {α : Type} {f : α → List Token} {g : α → List Item} (xs : List α)
    (h : ∀ x ∈ xs, Reads (f x) (g x)) :
    Reads (Token.commaList (xs.map f)) ([Item.comma].intercalate (xs.map g)) := by
  induction xs with
  | nil => exact nil
  | cons x xs ih =>
    have hx := h x (List.mem_cons_self ..)
    have hxs := ih fun y hy => h y (List.mem_cons_of_mem _ hy)
    cases xs with
    | nil => simpa [Token.commaList, Token.separated] using hx
    | cons y ys =>
      have hi : [Item.comma].intercalate ((x :: y :: ys).map g)
          = g x ++ [.comma] ++ [Item.comma].intercalate ((y :: ys).map g) := by
        simp only [List.map_cons, List.intercalate_cons_cons]
      rw [hi]
      exact (hx.append nil.space.comma).append hxs

end Reads
end EntityQuery
