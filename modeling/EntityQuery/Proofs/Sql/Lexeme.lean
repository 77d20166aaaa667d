/-
# Lexemes of a rendered text

The text of a statement is read lexeme by lexeme: names between double quotes, in which a
double quote is written twice; placeholders, `$` and a number or `?`; punctuation and
blanks; and words, which are all that is left between those.  Nothing but the text is
looked at.

Rendering writes each token as one lexeme, and reading finds just these lexemes again
(`lexemes_render`), whatever characters the names hold: all that it takes is a mark of
punctuation or a blank between any two other tokens (`Loose`).
-/

import EntityQuery.Sql.Backend
import Mathlib.Data.List.Chain

namespace EntityQuery

/-- A lexeme. -/
inductive Lexeme
  | word (letters : String)
  | space
  | comma
  | dot
  | openParen
  | closeParen
  | name (identifier : String)
  /-- A placeholder, with its number if it bears one. -/
  | placeholder (number : Option Nat)
deriving DecidableEq

namespace Lexeme

/-! ### Reading -/

/-- The characters that stand for themselves. -/
def isMark (c : Char) : Bool := c ∈ [' ', ',', '.', '(', ')']

/-- The characters that words are made of. -/
def isLetter (c : Char) : Bool := !isMark c && c ∉ ['"', '$', '?']

/-- Takes a quoted name off some characters, its closing quote included. -/
def unquote (q : Char) : List Char → Option (List Char × List Char)
  | [] => none
  | [c] => if c = q then some ([], []) else none
  | c :: d :: cs =>
    if c = q then
      if d = q then (unquote q cs).map fun p => (q :: p.1, p.2) else some ([], d :: cs)
    else (unquote q (d :: cs)).map fun p => (c :: p.1, p.2)

/-- The lexeme that starts with a character, and the characters after it. -/
def next? (c : Char) (cs : List Char) : Option (Lexeme × List Char) :=
  if c = ' ' then some (space, cs)
  else if c = ',' then some (comma, cs)
  else if c = '.' then some (dot, cs)
  else if c = '(' then some (openParen, cs)
  else if c = ')' then some (closeParen, cs)
  else if c = '"' then (unquote '"' cs).map fun p => (name (String.ofList p.1), p.2)
  else if c = '?' then some (placeholder none, cs)
  else if c = '$' then
    some (placeholder (some (Text.value (cs.takeWhile Char.isDigit))), cs.dropWhile Char.isDigit)
  else some (word (String.ofList (c :: cs.takeWhile isLetter)), cs.dropWhile isLetter)

/-- What is left behind a quoted name is no longer than the text. -/
theorem length_unquote {q : Char} {cs : List Char} {p : List Char × List Char}
    (h : unquote q cs = some p) : p.2.length ≤ cs.length := by
  induction cs using unquote.induct q generalizing p with
  | case1 => simp [unquote] at h
  | case2 =>
    rw [unquote, if_pos rfl] at h
    obtain rfl := Option.some.inj h
    simp
  | case3 c hc => simp [unquote, hc] at h
  | case4 cs ih =>
    rw [unquote, if_pos rfl, if_pos rfl] at h
    obtain ⟨r, hr, rfl⟩ := Option.map_eq_some_iff.1 h
    have := ih hr
    simp only [List.length_cons]
    omega
  | case5 d cs hd =>
    rw [unquote, if_pos rfl, if_neg hd] at h
    obtain rfl := Option.some.inj h
    simp
  | case6 c d cs hc ih =>
    rw [unquote, if_neg hc] at h
    obtain ⟨r, hr, rfl⟩ := Option.map_eq_some_iff.1 h
    have := ih hr
    simp only [List.length_cons] at this ⊢
    omega

/-- What is left behind a lexeme is shorter than what it was taken from. -/
theorem length_next? {c : Char} {cs rest : List Char} {l : Lexeme}
    (h : next? c cs = some (l, rest)) : rest.length ≤ cs.length := by
  have hmark : ∀ m, some (m, cs) = some (l, rest) → rest.length ≤ cs.length := by
    rintro m ⟨⟩
    exact le_rfl
  have hrun : ∀ m p, some (m, cs.dropWhile p) = some (l, rest) → rest.length ≤ cs.length := by
    rintro m p ⟨⟩
    exact (List.dropWhile_suffix _).length_le
  unfold next? at h
  split_ifs at h
  iterate 5 exact hmark _ h
  · obtain ⟨p, hp, ⟨⟩⟩ := Option.map_eq_some_iff.1 h
    exact length_unquote hp
  · exact hmark _ h
  · exact hrun _ _ h
  · exact hrun _ _ h

/-- The lexemes of some characters. -/
def lexemes : List Char → Option (List Lexeme)
  | [] => some []
  | c :: cs =>
    match _ : next? c cs with
    | none => none
    | some (l, rest) => (lexemes rest).map (l :: ·)
termination_by cs => cs.length
decreasing_by
  have := length_next? ‹next? c cs = some (l, rest)›
  simp only [List.length_cons]
  omega

/-- A text is its first lexeme, and those of what is left. -/
theorem lexemes_cons {c : Char} {cs rest : List Char} {l : Lexeme}
    (h : next? c cs = some (l, rest)) : lexemes (c :: cs) = (lexemes rest).map (l :: ·) := by
  rw [lexemes]
  split
  · next hn => rw [h] at hn; cases hn
  · next hn =>
    obtain ⟨rfl, rfl⟩ := Prod.mk.inj (Option.some.inj (h.symm.trans hn))
    rfl

/-! ### Runs of characters -/

/-- Whether no word and no name goes on at the start of some characters. -/
def Ended (cs : List Char) : Prop := ∀ c ∈ cs.head?, isMark c = true

/-- A run ends where its characters do. -/
theorem takeWhile_run {p : Char → Bool} (run rest : List Char) (hrun : ∀ c ∈ run, p c = true)
    (hrest : ∀ c ∈ rest.head?, p c = false) :
    (run ++ rest).takeWhile p = run ∧ (run ++ rest).dropWhile p = rest := by
  rw [List.takeWhile_append_of_pos hrun, List.dropWhile_append_of_pos hrun]
  cases rest with
  | nil => simp
  | cons c rest =>
    have hc := hrest c rfl
    simp [hc]

/-- No letter goes on where a text has ended. -/
theorem Ended.not_isLetter {cs : List Char} (h : Ended cs) :
    ∀ c ∈ cs.head?, isLetter c = false := fun c hc => by
  simp [isLetter, h c hc]

/-- No digit goes on where a text has ended. -/
theorem Ended.not_isDigit {cs : List Char} (h : Ended cs) :
    ∀ c ∈ cs.head?, c.isDigit = false := fun c hc => by
  have hm : c ∈ [' ', ',', '.', '(', ')'] := by simpa [isMark] using h c hc
  simp only [List.mem_cons, List.not_mem_nil, or_false] at hm
  rcases hm with rfl | rfl | rfl | rfl | rfl <;> rfl

/-- No quote goes on where a text has ended. -/
theorem Ended.ne_quote {cs : List Char} (h : Ended cs) : ∀ c ∈ cs.head?, c ≠ '"' := fun c hc => by
  rintro rfl
  exact absurd (h _ hc) (by decide)

/-- A character other than the quote belongs to the name. -/
theorem unquote_cons {q c : Char} (hc : c ≠ q) (cs : List Char) :
    unquote q (c :: cs) = (unquote q cs).map fun p => (c :: p.1, p.2) := by
  cases cs with
  | nil => simp [unquote, hc]
  | cons d cs => rw [unquote, if_neg hc]

/-- **A quoted name reads back,** whatever its characters are. -/
theorem unquote_quoted {q : Char} (name : List Char) {rest : List Char}
    (hrest : ∀ c ∈ rest.head?, c ≠ q) :
    unquote q (name.flatMap (fun c => if c = q then [c, c] else [c]) ++ q :: rest)
      = some (name, rest) := by
  induction name with
  | nil =>
    cases rest with
    | nil => simp [unquote]
    | cons d rest => simp [unquote, hrest d rfl]
  | cons c name ih =>
    rw [List.flatMap_cons, List.append_assoc]
    by_cases hc : c = q
    · subst hc
      rw [if_pos rfl, List.cons_append, List.cons_append, List.nil_append, unquote, if_pos rfl,
        if_pos rfl, ih]
      rfl
    · rw [if_neg hc, List.cons_append, List.nil_append, unquote_cons hc, ih]
      rfl

end Lexeme

/-! ### Lexemes of tokens -/

namespace Token

open Lexeme

/-- The lexeme that a token is spelled as, the next placeholder having the number `n`. -/
def lexeme (b : Backend) (n : Nat) : Token → Lexeme
  | word w => .word w
  | space => .space
  | comma => .comma
  | dot => .dot
  | openParen => .openParen
  | closeParen => .closeParen
  | name s => .name s
  | parameter _ => .placeholder (if b.numbered then some n else none)

/-- The lexemes that some tokens are spelled as. -/
def lexemes (b : Backend) : Nat → List Token → List Lexeme
  | _, [] => []
  | n, t :: ts => t.lexeme b n :: lexemes b (if t.literal?.isSome then n + 1 else n) ts

/-- Whether a token is punctuation or a blank. -/
def isMark : Token → Bool
  | space | comma | dot | openParen | closeParen => true
  | _ => false

/-- Whether a word has letters, and nothing but letters. -/
def isSpelled : Token → Bool
  | word w => !w.toList.isEmpty && w.toList.all isLetter
  | _ => true

/-- Two tokens of which one is a mark. -/
def Apart (t u : Token) : Prop := t.isMark = true ∨ u.isMark = true

end Token

/-- Tokens between which there is always a mark. -/
structure Loose (ts : List Token) : Prop where
  apart : ts.IsChain Token.Apart
  spelled : ∀ t ∈ ts, t.isSpelled = true

namespace Lexeme

variable {b : Backend}

/-- **A token is read back as its lexeme** if it is a mark or one follows. -/
theorem next?_spell (hb : b = .standard ∨ b = .positional) (n : Nat) {t : Token}
    (ht : t.isSpelled = true) {rest : List Char} (hend : t.isMark = true ∨ Ended rest) :
    ∃ c cs, b.spell n t ++ rest = c :: cs ∧ next? c cs = some (t.lexeme b n, rest) := by
  have hquote : b.left = '"' ∧ b.right = '"' := by rcases hb with rfl | rfl <;> exact ⟨rfl, rfl⟩
  cases t with
  | word w =>
    obtain ⟨hne, hall⟩ := Bool.and_eq_true_iff.1 ht
    have hletters : ∀ c ∈ w.toList, isLetter c = true := List.all_eq_true.1 hall
    obtain ⟨c, cs, hw⟩ := List.exists_cons_of_ne_nil (by simpa using hne : w.toList ≠ [])
    have hrest : Ended rest := hend.resolve_left Bool.false_ne_true
    have hc : isLetter c = true := hletters c (by simp [hw])
    obtain ⟨htake, hdrop⟩ := takeWhile_run cs rest
      (fun d hd => hletters d (by simp [hw, hd])) hrest.not_isLetter
    refine ⟨c, cs ++ rest, by simp [Backend.spell, hw], ?_⟩
    simp only [isLetter, isMark, List.mem_cons, List.not_mem_nil, or_false, Bool.and_eq_true,
      Bool.not_eq_true', decide_eq_false_iff_not, decide_eq_true_eq, not_or] at hc
    rw [next?, htake, hdrop, ← hw]
    simp [hc, Token.lexeme]
  | name s =>
    have hrest : Ended rest := hend.resolve_left Bool.false_ne_true
    refine ⟨'"', s.toList.flatMap (fun c => if c = '"' then [c, c] else [c]) ++ '"' :: rest, ?_, ?_⟩
    · simp [Backend.spell, Backend.quote, hquote]
    · simp [next?, unquote_quoted _ hrest.ne_quote, Token.lexeme]
  | parameter v =>
    have hrest : Ended rest := hend.resolve_left Bool.false_ne_true
    rcases hb with rfl | rfl
    · obtain ⟨htake, hdrop⟩ := takeWhile_run (Text.digits n) rest
        (fun c hc => Nat.isDigit_of_mem_toDigits (by decide) (by decide) hc) hrest.not_isDigit
      refine ⟨'$', Text.digits n ++ rest, rfl, ?_⟩
      simp [next?, htake, hdrop, Text.value_digits, Token.lexeme, Backend.standard]
    · exact ⟨'?', rest, rfl, rfl⟩
  | _ => exact ⟨_, rest, rfl, rfl⟩

/-- Tokens that start with a mark are rendered so. -/
theorem ended_render (n : Nat) {ts : List Token} (h : ∀ t ∈ ts.head?, t.isMark = true) :
    Ended (b.render n ts) := by
  rcases ts with _ | ⟨t, ts⟩
  · simp [Ended, Backend.render]
  · have ht := h t rfl
    cases t with
    | word | name | parameter => exact absurd ht Bool.false_ne_true
    | _ => simp [Ended, Backend.render, Backend.spell, isMark]

/-- **Rendered tokens are read back as their lexemes.** -/
theorem lexemes_render (hb : b = .standard ∨ b = .positional) {ts : List Token}
    (h : Loose ts) (n : Nat) : lexemes (b.render n ts) = some (Token.lexemes b n ts) := by
  induction ts generalizing n with
  | nil => rw [Backend.render, lexemes, Token.lexemes]
  | cons t ts ih =>
    obtain ⟨hhead, htail⟩ := List.isChain_cons.1 h.apart
    have hend : t.isMark = true ∨ Ended (b.render (if t.literal?.isSome then n + 1 else n) ts) := by
      by_cases ht : t.isMark = true
      · exact .inl ht
      · exact .inr (ended_render _ fun u hu => (hhead u hu).resolve_left ht)
    obtain ⟨c, cs, hcs, hnext⟩ := next?_spell hb n (h.spelled t (List.mem_cons_self ..)) hend
    rw [Backend.render, hcs, lexemes_cons hnext,
      ih ⟨htail, fun u hu => h.spelled u (List.mem_cons_of_mem _ hu)⟩, Token.lexemes]
    rfl

/-! ### Placeholders and values -/

/-- The token of a lexeme; a placeholder stands for the value of its number, or else of
the number `n`, counted from 1. -/
def token? (values : List Literal) (n : Nat) : Lexeme → Option Token
  | word w => some (.word w)
  | space => some .space
  | comma => some .comma
  | dot => some .dot
  | openParen => some .openParen
  | closeParen => some .closeParen
  | name s => some (.name s)
  | placeholder k =>
    match k.getD n with
    | 0 => none
    | i + 1 => values[i]?.map .parameter

/-- The tokens of some lexemes, the next placeholder being the `n`-th. -/
def tokens? (values : List Literal) : Nat → List Lexeme → Option (List Token)
  | _, [] => some []
  | n, l :: ls => do
    let t ← l.token? values n
    let ts ← tokens? values (if t.literal?.isSome then n + 1 else n) ls
    return t :: ts

/-- The lexeme of a token is read back, a placeholder by the value at its position. -/
theorem token?_lexeme {values before after : List Literal} {t : Token}
    (h : values = before ++ t.literal?.toList ++ after) :
    (t.lexeme b (before.length + 1)).token? values (before.length + 1) = some t := by
  cases t with
  | parameter v =>
    have hv : values[before.length]? = some v := by simp [h, Token.literal?]
    have hk : (if b.numbered then some (before.length + 1) else none).getD (before.length + 1)
        = before.length + 1 := by split <;> rfl
    rw [Token.lexeme, token?, hk]
    simp [hv]
  | _ => rfl

/-- **Values find their places again:** lexemes and values make up the tokens. -/
theorem tokens?_lexemes {values : List Literal} (before : List Literal) {ts : List Token}
    (h : values = before ++ Token.literals ts) :
    tokens? values (before.length + 1) (Token.lexemes b (before.length + 1) ts) = some ts := by
  induction ts generalizing before with
  | nil => rfl
  | cons t ts ih =>
    have hliterals : Token.literals (t :: ts) = t.literal?.toList ++ Token.literals ts := by
      cases ht : t.literal? <;> simp [Token.literals, ht]
    rw [hliterals, ← List.append_assoc] at h
    have hn : (if t.literal?.isSome then before.length + 1 + 1 else before.length + 1)
        = (before ++ t.literal?.toList).length + 1 := by
      cases t.literal? <;> simp
    rw [Token.lexemes, tokens?, token?_lexeme h, Option.bind_eq_bind, Option.bind_some, hn, ih _ h]
    rfl

end Lexeme
end EntityQuery
