/-
# The sets of a statement

Behind every word `IN` of a text stands a set in parentheses, whose elements are what its
commas separate, those within further parentheses aside (`Token.sets?`).  An element is a
scalar if it is a placeholder, in parentheses or not (`IsScalar`), and a row if it is a list
of scalars in parentheses of its own (`IsRow`).

A test for membership writes its values in parentheses twice.  So its set has one element
alone, the row of all its values (`Select.sets?_tokens`); and such a set is a list of
scalars only where there is a single value (`forall₂_isScalar_iff`).
-/

import EntityQuery.Proofs.Sql.Spacing
import Mathlib.Data.List.Forall2

namespace EntityQuery
namespace Token

/-! ### Reading -/

/-- Tokens without their blanks. -/
def compact (ts : List Token) : List Token := ts.filter (· ≠ .space)

/-- The number of parentheses that are open behind a token. -/
def depth (d : Nat) : Token → Nat
  | openParen => d + 1
  | closeParen => d - 1
  | _ => d

/-- The tokens in front of the parenthesis that closes the outermost of those open. -/
def inside (d : Nat) : List Token → Option (List Token)
  | [] => none
  | t :: ts =>
    if d = 0 ∧ t = .closeParen then some [] else (inside (t.depth d) ts).map (t :: ·)

/-- The tokens between the commas that stand in no parentheses. -/
def parts (d : Nat) : List Token → List (List Token)
  | [] => [[]]
  | t :: ts =>
    if d = 0 ∧ t = .comma then [] :: parts 0 ts else (parts (t.depth d) ts).modifyHead (t :: ·)

/-- Reads the elements of a set in parentheses. -/
def set? : List Token → Option (List (List Token))
  | .openParen :: ts => (inside 0 ts).map (parts 0)
  | _ => none

/-- Reads the sets behind each word `IN`, blanks aside. -/
def sets? : List Token → Option (List (List (List Token)))
  | [] => some []
  | t :: ts =>
    if t = .word "IN" then do
      let set ← set? ts
      let rest ← sets? ts
      return set :: rest
    else sets? ts

end Token

open Token

/-- **Reads the sets of a text**, given the values of its placeholders. -/
def readSets? (text : String) (values : List Literal) : Option (List (List (List Token))) := do
  let lexemes ← Lexeme.lexemes text.toList
  let tokens ← Lexeme.tokens? values 1 lexemes
  sets? (compact tokens)

/-- An element that is a value: its placeholder, in any number of parentheses. -/
inductive IsScalar : List Token → Literal → Prop
  | placeholder (v : Literal) : IsScalar [.parameter v] v
  | group {ts : List Token} {v : Literal} (h : IsScalar ts v) : IsScalar (Token.group ts) v

/-- An element that is a row of values: a list of scalars in parentheses. -/
def IsRow (ts : List Token) (vs : List Literal) : Prop :=
  ∃ body, ts = Token.group body ∧ List.Forall₂ IsScalar (parts 0 body) vs

namespace Token

variable {ts us : List Token} {d : Nat}

/-! ### Parentheses -/

/-- Blanks are left out of each part. -/
@[simp]
theorem compact_append (ts us : List Token) : compact (ts ++ us) = compact ts ++ compact us :=
  List.filter_append ..

/-- Parentheses stay where blanks are left out. -/
@[simp]
theorem compact_group (ts : List Token) : compact (group ts) = group (compact ts) := by
  simp [compact, group]

/-- Tokens that neither open nor close a parenthesis. -/
def Plain (ts : List Token) : Prop := ∀ t ∈ ts, t ≠ .openParen ∧ t ≠ .closeParen

/-- A token that is no parenthesis leaves the depth as it is. -/
theorem depth_of_ne {t : Token} (h : t ≠ .openParen ∧ t ≠ .closeParen) (d : Nat) :
    t.depth d = d := by
  cases t with
  | openParen => exact absurd rfl h.1
  | closeParen => exact absurd rfl h.2
  | _ => rfl

/-- Plain tokens are passed over. -/
theorem Plain.inside_append (h : Plain ts) (d : Nat) (us : List Token) :
    inside d (ts ++ us) = (inside d us).map (ts ++ ·) := by
  induction ts with
  | nil => simp
  | cons t ts ih =>
    obtain ⟨ht, hts⟩ := List.forall_mem_cons.1 h
    rw [List.cons_append, inside, if_neg fun hclose => ht.2 hclose.2, depth_of_ne ht, ih hts,
      Option.map_map]
    rfl

/-- A group of plain tokens is what stands inside the parentheses around it. -/
theorem Plain.inside_group (h : Plain ts) (rest : List Token) :
    inside 0 (group ts ++ .closeParen :: rest) = some (group ts) := by
  have hclose : inside 0 (.closeParen :: rest) = some [] := rfl
  have hend : inside 1 (.closeParen :: .closeParen :: rest) = some [.closeParen] := by
    rw [inside, if_neg (by decide)]
    exact congrArg (Option.map (Token.closeParen :: ·)) hclose
  have hgroup : group ts ++ .closeParen :: rest
      = .openParen :: (ts ++ .closeParen :: .closeParen :: rest) := by simp [group]
  rw [hgroup, inside, if_neg (by simp)]
  show (inside 1 _).map _ = _
  rw [h.inside_append, hend]
  rfl

/-- Within parentheses nothing is parted. -/
theorem Plain.parts_append (h : Plain ts) (d : Nat) (us : List Token) :
    parts (d + 1) (ts ++ us) = (parts (d + 1) us).modifyHead (ts ++ ·) := by
  induction ts with
  | nil =>
    rw [List.nil_append]
    cases parts (d + 1) us <;> rfl
  | cons t ts ih =>
    obtain ⟨ht, hts⟩ := List.forall_mem_cons.1 h
    rw [List.cons_append, parts, if_neg (by simp), depth_of_ne ht, ih hts,
      List.modifyHead_modifyHead]
    rfl

/-- **A list in parentheses is one element.** -/
theorem Plain.parts_group (h : Plain ts) : parts 0 (group ts) = [group ts] := by
  have hend : parts 1 [.closeParen] = [[.closeParen]] := rfl
  show (parts 1 (ts ++ [.closeParen])).modifyHead (Token.openParen :: ·) = _
  rw [h.parts_append, hend]
  rfl

/-! ### Lists of values -/

/-- A list of values, without blanks. -/
def valueTokens (vs : List Literal) : List Token :=
  compact (commaList (vs.map fun v => [.parameter v]))

/-- Values are written with commas between them. -/
theorem valueTokens_cons_cons (v w : Literal) (vs : List Literal) :
    valueTokens (v :: w :: vs) = .parameter v :: .comma :: valueTokens (w :: vs) := rfl

/-- No parenthesis stands among values. -/
theorem plain_valueTokens (vs : List Literal) : Plain (valueTokens vs) := by
  induction vs with
  | nil => simp [valueTokens, commaList, separated, compact, Plain]
  | cons v vs ih =>
    cases vs with
    | nil => simp [valueTokens, commaList, separated, compact, Plain]
    | cons w vs =>
      rw [valueTokens_cons_cons]
      exact List.forall_mem_cons.2 ⟨by simp, List.forall_mem_cons.2 ⟨by simp, ih⟩⟩

/-- The parts of a list of values are the values. -/
theorem parts_valueTokens {vs : List Literal} (h : vs ≠ []) :
    parts 0 (valueTokens vs) = vs.map fun v => [.parameter v] := by
  induction vs with
  | nil => exact absurd rfl h
  | cons v vs ih =>
    cases vs with
    | nil => rfl
    | cons w vs =>
      rw [valueTokens_cons_cons, parts, if_neg (by simp)]
      show (parts 0 (.comma :: valueTokens (w :: vs))).modifyHead (Token.parameter v :: ·) = _
      rw [parts, if_pos ⟨rfl, rfl⟩, ih (by simp)]
      rfl

/-- The values of a membership as they are written, without blanks. -/
def rowTokens (vs : List Literal) : List Token := group (valueTokens vs)

/-- A list of values in parentheses is a row of them. -/
theorem isRow_rowTokens {vs : List Literal} (h : vs ≠ []) : IsRow (rowTokens vs) vs := by
  refine ⟨_, rfl, ?_⟩
  rw [parts_valueTokens h, List.forall₂_map_left_iff, List.forall₂_same]
  exact fun v _ => .placeholder v

/-- **A set of one row is a list of scalars** only where there is a single value. -/
theorem forall₂_isScalar_iff (vs : List Literal) :
    List.Forall₂ IsScalar [rowTokens vs] vs ↔ vs.length = 1 := by
  constructor
  · intro h
    exact h.length_eq.symm
  · intro h
    obtain ⟨v, rfl⟩ := List.length_eq_one_iff.1 h
    exact .cons (.group (.placeholder v)) .nil

/-! ### Sets of tokens -/

/-- Tokens that add some sets to those of whatever follows. -/
def HasSets (ts : List Token) (sets : List (List (List Token))) : Prop :=
  ∀ rest, sets? (compact ts ++ rest) = (sets? rest).map (sets ++ ·)

namespace HasSets

variable {A B : List (List (List Token))}

/-- The sets of a text are those that its tokens add to nothing. -/
theorem sets? (h : HasSets ts A) : Token.sets? (compact ts) = some A := by
  have := h []
  rwa [List.append_nil, Token.sets?, Option.map_some, List.append_nil] at this

/-- **Sets are found one behind the other.** -/
theorem append (hts : HasSets ts A) (hus : HasSets us B) : HasSets (ts ++ us) (A ++ B) := by
  intro rest
  rw [compact_append, List.append_assoc, hts, hus, Option.map_map]
  simp only [Function.comp_def, List.append_assoc]

/-- Where there is no `IN`, there is no set. -/
theorem of_notMem (h : .word "IN" ∉ ts) : HasSets ts [] := by
  intro rest
  induction ts with
  | nil => simp [compact]
  | cons t ts ih =>
    rw [List.mem_cons, not_or] at h
    have ih := ih h.2
    by_cases ht : t = .space
    · subst ht
      exact ih
    · have hcompact : compact (t :: ts) = t :: compact ts := List.filter_cons_of_pos (by simp [ht])
      rw [hcompact, List.cons_append, Token.sets?, if_neg fun hin => h.1 hin.symm, ih]

/-- Blanks add no set. -/
theorem space (h : HasSets ts A) : HasSets (.space :: ts) A := h

/-- A token that is not the word `IN` adds no set. -/
theorem cons {t : Token} (ht : t ≠ .word "IN") (h : HasSets ts A) : HasSets (t :: ts) A := by
  have hsingle : HasSets [t] [] := .of_notMem (by simpa using ht.symm)
  exact hsingle.append h

/-- Parentheses add no set. -/
theorem group (h : HasSets ts A) : HasSets (Token.group ts) A := by
  have hclose : HasSets [.closeParen] [] := .of_notMem (by simp)
  have hgroup : HasSets (Token.group ts) (A ++ []) := (h.append hclose).cons (by simp)
  rwa [List.append_nil] at hgroup

/-- Parts without sets have none together, if what separates them has none. -/
theorem separated {between : List Token} {tss : List (List Token)} (hb : HasSets between [])
    (h : ∀ ts ∈ tss, HasSets ts []) : HasSets (separated between tss) [] := by
  induction tss with
  | nil => exact .of_notMem (by simp [Token.separated])
  | cons ts tss ih =>
    obtain ⟨hts, htss⟩ := List.forall_mem_cons.1 h
    cases tss with
    | nil => exact hts
    | cons us tss => exact (hts.append hb).append (ih htss)

/-- A list of parts without sets has none. -/
theorem commaList {tss : List (List Token)} (h : ∀ ts ∈ tss, HasSets ts []) :
    HasSets (commaList tss) [] :=
  .separated (.of_notMem (by simp)) h

/-- A phrase without the word `IN` has no set. -/
theorem phrase {ws : List String} (h : "IN" ∉ ws) : HasSets (phrase ws) [] := by
  refine .separated (.of_notMem (by simp)) fun ts hts => .of_notMem ?_
  obtain ⟨w, hw, rfl⟩ := List.mem_map.1 hts
  rw [List.mem_singleton]
  rintro ⟨⟩
  exact h hw

/-- **The set of a membership is one row.** -/
theorem membership (vs : List Literal) :
    HasSets (.word "IN" :: .space :: Token.group (tupleTokens vs)) [[rowTokens vs]] := by
  intro rest
  have hplain := plain_valueTokens vs
  have hcompact : compact (Token.group (tupleTokens vs)) ++ rest
      = .openParen :: (rowTokens vs ++ .closeParen :: rest) := by
    rw [compact_group, tupleTokens, compact_group]
    simp [Token.group, rowTokens, valueTokens]
  have hset : set? (compact (Token.group (tupleTokens vs)) ++ rest) = some [rowTokens vs] := by
    rw [hcompact, set?, rowTokens, hplain.inside_group, Option.map_some, hplain.parts_group]
  -- within the set there is no other
  have hbehind : HasSets (Token.group (tupleTokens vs)) [] := by
    refine .group (.group (.commaList fun ts hts => .of_notMem ?_))
    obtain ⟨v, -, rfl⟩ := List.mem_map.1 hts
    simp
  show Token.sets? (.word "IN" :: (compact (Token.group (tupleTokens vs)) ++ rest)) = _
  rw [Token.sets?, if_pos rfl, hset, hbehind]
  cases Token.sets? rest <;> rfl

end HasSets
end Token

/-! ### Expressions -/

/-- The values that a test for membership compares with. -/
def Test.memberships {ρ : Type} : Test ρ → List (List Literal)
  | .isIn vs => [vs]
  | .notIn vs => [vs]
  | _ => []

/-- The values of the memberships of an expression, from left to right. -/
def Expr.memberships : Expr → List (List Literal)
  | .constant _ => []
  | .test _ t => t.memberships
  | .and l r => memberships l ++ memberships r
  | .or l r => memberships l ++ memberships r
  | .not e => memberships e

/-- The sets of some memberships as they are written: one row each. -/
def rowSets (memberships : List (List Literal)) : List (List (List Token)) :=
  memberships.map fun vs => [rowTokens vs]

/-- A test has the set of its membership, if it is one. -/
theorem Test.hasSets (t : Test ColumnRef) : HasSets t.tokens (rowSets t.memberships) := by
  have hparameter (v : Literal) : HasSets (Token.group [.parameter v]) [] :=
    .group (.of_notMem (by simp))
  have hnull : HasSets (Token.group [.word "NULL"]) [] := .group (.of_notMem (by simp))
  have hsymbol (c : Comparator) : "IN" ∉ [c.symbol] := by cases c <;> decide
  have hinterval (low high : Literal) : HasSets (intervalTokens low high) [] :=
    (hparameter low).append (((hparameter high).space.cons (by simp)).space)
  have hnot : HasSets (Token.phrase ["NOT"]) [] := .phrase (by decide)
  cases t with
  | isNull => exact (HasSets.phrase (by decide)).append hnull.space
  | isNotNull => exact (HasSets.phrase (by decide)).append hnull.space
  | compare c v => exact (HasSets.phrase (hsymbol c)).append (hparameter v).space
  | compareWith c other =>
    exact (HasSets.phrase (hsymbol c)).append (HasSets.group (.of_notMem (by
      simp [ColumnRef.tokens]))).space
  | isIn vs => exact .membership vs
  | notIn vs => exact hnot.append (HasSets.membership vs).space
  | between low high => exact (HasSets.phrase (by decide)).append (hinterval low high).space
  | notBetween low high => exact (HasSets.phrase (by decide)).append (hinterval low high).space
  | like pattern => exact (HasSets.phrase (by decide)).append (hparameter _).space
  | notLike pattern => exact (HasSets.phrase (by decide)).append (hparameter _).space

/-- **An expression has the sets of its memberships,** from left to right. -/
theorem Expr.hasSets : ∀ e : Expr, HasSets e.tokens (rowSets e.memberships)
  | .constant _ => .of_notMem (by simp [Expr.tokens])
  | .test c t =>
    (HasSets.group (.of_notMem (by simp [ColumnRef.tokens]))).append t.hasSets.space
  | .and l r => by
    have hl : HasSets (if l.isAnd then l.tokens else Token.group l.tokens)
        (rowSets l.memberships) := by
      split
      · exact l.hasSets
      · exact l.hasSets.group
    rw [memberships, rowSets, List.map_append]
    exact hl.append ((r.hasSets.group.space.cons (by simp)).space)
  | .or l r => by
    have hl : HasSets (if l.isOr then l.tokens else Token.group l.tokens)
        (rowSets l.memberships) := by
      split
      · exact l.hasSets
      · exact l.hasSets.group
    rw [memberships, rowSets, List.map_append]
    exact hl.append ((r.hasSets.group.space.cons (by simp)).space)
  | .not e => e.hasSets.group.space.cons (by simp)

namespace Expr

/-- Nesting expressions to the left keeps the order of the memberships. -/
theorem memberships_foldl {f : Expr → Expr → Expr}
    (hf : ∀ l r, (f l r).memberships = l.memberships ++ r.memberships) (e : Expr)
    (es : List Expr) : (es.foldl f e).memberships = e.memberships ++ es.flatMap memberships := by
  induction es generalizing e with
  | nil => simp
  | cons e' es ih => rw [List.foldl_cons, ih, hf, List.append_assoc, List.flatMap_cons]

/-- A conjunction has the memberships of all its parts. -/
theorem memberships_all (es : List Expr) : (all es).memberships = es.flatMap memberships := by
  cases es with
  | nil => rfl
  | cons e es => exact memberships_foldl (fun _ _ => rfl) e es

/-- A disjunction has the memberships of all its parts. -/
theorem memberships_any (es : List Expr) : (any es).memberships = es.flatMap memberships := by
  cases es with
  | nil => rfl
  | cons e es => exact memberships_foldl (fun _ _ => rfl) e es

end Expr

/-! ### Statements -/

/-- A join has the sets of its condition. -/
theorem Join.hasSets (j : Join) : HasSets j.tokens (rowSets j.condition.memberships) := by
  have hkind : HasSets (phrase j.kind.words) [] := .phrase (by cases j.kind <;> decide)
  have hname : HasSets (.space :: .name j.table ::
      (if j.qualifier = j.table then [] else [.space, .word "AS", .space, .name j.qualifier])) [] :=
    .of_notMem (by split <;> simp)
  have hcondition := (j.condition.hasSets.space.cons (t := .word "ON") (by simp)).space
  exact (hkind.append hname).append hcondition

namespace Select

/-- The memberships of a statement: those of its joins, then those of its filter. -/
def memberships (s : Select) : List (List Literal) :=
  s.joins.flatMap (fun j => j.condition.memberships) ++ s.filter.toList.flatMap Expr.memberships

/-- **A statement has the sets of its memberships,** each a single row. -/
theorem sets?_tokens (s : Select) : sets? (compact s.tokens) = some (rowSets s.memberships) := by
  -- only joins and the filter hold expressions, so nothing else has the word `IN`
  have hhead : HasSets (.word "SELECT" :: .space ::
      (if s.distinct then [.word "DISTINCT", .space] else [])) [] :=
    .of_notMem (by split <;> simp)
  have hcolumns : HasSets s.columnTokens [] := .commaList fun ts hts => .of_notMem (by
    obtain ⟨c, -, rfl⟩ := List.mem_map.1 hts
    simp [ColumnRef.tokens])
  have htable : HasSets (.space :: .word "FROM" :: .space :: [.name s.table]) [] :=
    .of_notMem (by simp)
  have hjoins : HasSets (s.joins.flatMap fun j => .space :: j.tokens)
      (rowSets (s.joins.flatMap fun j => j.condition.memberships)) := by
    induction s.joins with
    | nil => exact .of_notMem (by simp)
    | cons j js ih =>
      rw [List.flatMap_cons, List.flatMap_cons, rowSets, List.map_append]
      exact j.hasSets.space.append ih
  have hfilter : HasSets s.filterTokens (rowSets (s.filter.toList.flatMap Expr.memberships)) := by
    unfold filterTokens
    cases s.filter with
    | none => exact .of_notMem (by simp)
    | some e =>
      rw [Option.toList_some, List.flatMap_singleton]
      exact (e.hasSets.space.cons (by simp)).space
  have hordering : HasSets s.orderingTokens [] := by
    unfold orderingTokens
    split
    · exact .of_notMem (by simp)
    · refine (HasSets.phrase (by decide)).space.append (HasSets.commaList fun ts hts => ?_).space
      obtain ⟨k, -, rfl⟩ := List.mem_map.1 hts
      exact .of_notMem (by cases k.2 <;> simp [ColumnRef.tokens, Direction.word])
  have hbound (word : String) (bound : Option UInt64) (hword : word ≠ "IN") :
      HasSets (boundTokens word bound) [] :=
    .of_notMem (by cases bound <;> simp [boundTokens, hword.symm])
  have hall := (((((hhead.append hcolumns).append (htable.append hjoins)).append hfilter).append
    hordering).append (hbound "LIMIT" s.limit (by decide))).append
    (hbound "OFFSET" s.offset (by decide))
  simp only [List.nil_append, List.append_nil] at hall
  rw [memberships, rowSets, List.map_append]
  exact hall.sets?

end Select
end EntityQuery
