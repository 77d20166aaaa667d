/-
# Placeholders of a rendered text

The placeholders of a text are those outside of its quoted names, as its lexemes show them
(`Lexeme.numbers`).  Rendered tokens have one for each literal, numbered from 1 in the order
of the text (`numbers_render`).  Rendering them without numbers changes nothing but the
placeholders (`rewrite_anonymous_render`), and asking whether a statement has any row puts
its text in parentheses as it is (`render_existsTokens`).
-/

import EntityQuery.Proofs.Sql.Spacing
import EntityQuery.Proofs.Sql.Literals

namespace EntityQuery

namespace Lexeme

/-- The characters of a lexeme. -/
def spell : Lexeme → List Char
  | word w => w.toList
  | space => [' ']
  | comma => [',']
  | dot => ['.']
  | openParen => ['(']
  | closeParen => [')']
  | name s => '"' :: s.toList.flatMap (fun c => if c = '"' then [c, c] else [c]) ++ ['"']
  | placeholder none => ['?']
  | placeholder (some k) => '$' :: Text.digits k

/-- The number of a placeholder. -/
def number? : Lexeme → Option (Option Nat)
  | placeholder k => some k
  | _ => none

/-- A lexeme without its number. -/
def anonymous : Lexeme → Lexeme
  | placeholder _ => placeholder none
  | l => l

/-- The numbers of the placeholders of a text, from left to right. -/
def numbers (text : String) : Option (List (Option Nat)) :=
  (lexemes text.toList).map fun ls => ls.filterMap number?

/-- A text with each of its lexemes replaced. -/
def rewrite (f : Lexeme → Lexeme) (text : String) : Option String :=
  (lexemes text.toList).map fun ls => String.ofList ((ls.map f).flatMap spell)

variable {b : Backend}

/-- A token is spelled as its lexeme is. -/
theorem spell_lexeme (hb : b = .standard ∨ b = .positional) (n : Nat) (t : Token) :
    (t.lexeme b n).spell = b.spell n t := by
  rcases hb with rfl | rfl <;> cases t <;> rfl

/-- The lexemes of tokens are spelled as the tokens are. -/
theorem spell_lexemes (hb : b = .standard ∨ b = .positional) (n : Nat) (ts : List Token) :
    (Token.lexemes b n ts).flatMap spell = b.render n ts := by
  induction ts generalizing n with
  | nil => rfl
  | cons t ts ih =>
    rw [Token.lexemes, List.flatMap_cons, spell_lexeme hb, ih]
    rfl

/-- Without their numbers, lexemes are those of anonymous placeholders. -/
theorem map_anonymous_lexemes (n m : Nat) (ts : List Token) :
    (Token.lexemes .standard n ts).map anonymous = Token.lexemes .positional m ts := by
  induction ts generalizing n m with
  | nil => rfl
  | cons t ts ih =>
    rw [Token.lexemes, List.map_cons, ih _ (if t.literal?.isSome then m + 1 else m),
      Token.lexemes]
    cases t <;> rfl

/-- Tokens have one placeholder for each literal, numbered in order. -/
theorem numbers_lexemes (n : Nat) (ts : List Token) :
    (Token.lexemes .standard n ts).filterMap number?
      = (List.range (Token.literals ts).length).map fun i => some (n + i) := by
  induction ts generalizing n with
  | nil => rfl
  | cons t ts ih =>
    cases ht : t.literal? with
    | none =>
      have hnumber : (t.lexeme .standard n).number? = none := by
        cases t <;> first | rfl | cases ht
      simp [Token.lexemes, hnumber, ht, ih]
    | some v =>
      have hnumber : (t.lexeme .standard n).number? = some (some n) := by
        cases t <;> first | rfl | cases ht
      simp only [Token.lexemes, List.filterMap_cons, hnumber, ht, ih, Token.literals_cons,
        Option.isSome_some, if_true, Option.toList_some, List.singleton_append, List.length_cons,
        List.range_succ_eq_map, List.map_cons, List.map_map, Nat.add_zero]
      congr 2
      funext i
      simp only [Function.comp_apply, Nat.succ_eq_add_one]
      congr 1
      omega

/-- **The placeholders of a text are numbered from 1,** one for each literal. -/
theorem numbers_render {ts : List Token} (h : Loose ts) :
    numbers (String.ofList (Backend.standard.render 1 ts))
      = some ((List.range (Token.literals ts).length).map fun i => some (i + 1)) := by
  rw [numbers, String.toList_ofList, lexemes_render (.inl rfl) h, Option.map_some,
    numbers_lexemes]
  simp only [Nat.add_comm 1]

/-- The lexemes of a rendered text spell it. -/
theorem rewrite_id_render (hb : b = .standard ∨ b = .positional) {ts : List Token}
    (h : Loose ts) :
    rewrite id (String.ofList (b.render 1 ts)) = some (String.ofList (b.render 1 ts)) := by
  rw [rewrite, String.toList_ofList, lexemes_render hb h, Option.map_some, List.map_id,
    spell_lexemes hb]

/-- **Anonymous placeholders stand where the numbered ones do.** -/
theorem rewrite_anonymous_render {ts : List Token} (h : Loose ts) :
    rewrite anonymous (String.ofList (Backend.standard.render 1 ts))
      = some (String.ofList (Backend.positional.render 1 ts)) := by
  rw [rewrite, String.toList_ofList, lexemes_render (.inl rfl) h, Option.map_some,
    map_anonymous_lexemes 1 1, spell_lexemes (.inr rfl)]

end Lexeme

namespace Backend

/-- Tokens behind others are numbered on. -/
theorem render_append (b : Backend) (n : Nat) (ts us : List Token) :
    b.render n (ts ++ us)
      = b.render n ts ++ b.render (n + (Token.literals ts).length) us := by
  induction ts generalizing n with
  | nil => rfl
  | cons t ts ih =>
    rw [List.cons_append, render, render, ih, List.append_assoc]
    congr 3
    cases ht : t.literal? with
    | none => simp [ht]
    | some v =>
      simp only [ht, Token.literals_cons, Option.isSome_some, if_true, Option.toList_some,
        List.singleton_append, List.length_cons]
      omega

/-- **Asking whether there is any row keeps the text of the statement.** -/
theorem render_existsTokens (b : Backend) (s : Select) :
    String.ofList (b.render 1 s.existsTokens)
      = "SELECT EXISTS(" ++ String.ofList (b.render 1 s.tokens) ++ ")" := by
  have htokens : s.existsTokens
      = [.word "SELECT", .space, .word "EXISTS", .openParen] ++ s.tokens ++ [.closeParen] := rfl
  rw [htokens, render_append, render_append, String.ofList_append, String.ofList_append]
  rfl

end Backend

/-! ### Cells -/

namespace Literal

variable {vs before : List Literal} {v : Literal} {cells : List Cell}

/-- Literals that all have a cell are bound as these. -/
theorem mapM_bind_eq_ok (h : vs.mapM cell? = some cells) : vs.mapM bind = .ok cells := by
  induction vs generalizing cells with
  | nil =>
    obtain rfl : [] = cells := by simpa using h
    rfl
  | cons v vs ih =>
    rw [List.mapM_cons] at h
    obtain ⟨c, hc, h⟩ := Option.bind_eq_some_iff.1 h
    obtain ⟨cs, hcs, h⟩ := Option.bind_eq_some_iff.1 h
    obtain rfl := Option.some.inj h
    rw [List.mapM_cons, bind, hc, ih hcs]
    rfl

/-- The first literal without a cell is the error. -/
theorem mapM_bind_eq_error (after : List Literal) (hbefore : ∀ u ∈ before, u.cell? ≠ none)
    (hv : v.cell? = none) :
    (before ++ v :: after).mapM bind = .error (.unsupportedValue v) := by
  induction before with
  | nil =>
    rw [List.nil_append, List.mapM_cons, bind, hv]
    rfl
  | cons u us ih =>
    obtain ⟨c, hc⟩ := Option.ne_none_iff_exists'.1 (hbefore u (List.mem_cons_self ..))
    rw [List.cons_append, List.mapM_cons, bind, hc,
      ih fun w hw => hbefore w (List.mem_cons_of_mem _ hw)]
    rfl

end Literal
end EntityQuery
