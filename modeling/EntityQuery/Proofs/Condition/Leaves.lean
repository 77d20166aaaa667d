/-
# The leaves of conditions

The leaves of a predicate are its comparisons, depth first and from left to right, and
those of a condition are the comparisons of its tests in the same order.  Joining two
predicates splices their parts, and neither loses nor moves a leaf
(`Predicate.leaves_conj`, `Predicate.leaves_disj`), so a condition and the predicate that
it puts together have the same leaves (`Condition.leaves_of_predicate`).
-/

import EntityQuery.Condition.Basic
import Mathlib.Data.List.Basic
import Mathlib.Data.List.Forall2

namespace EntityQuery

namespace Comparison

/-- The paths of a comparison: its own, and the one it may compare with. -/
def paths (c : Comparison) : List Path :=
  match c.operand with
  | .path other => [c.path, other]
  | _ => [c.path]

/-- A comparison fits if it is a test of its path. -/
def Fits (c : Comparison) : Prop := ∃ t, c = ofTest c.path t

/-- The comparisons that fit are those whose operator and operand are recognised. -/
theorem fits_iff {c : Comparison} : c.Fits ↔ ∃ t, Test.of? c.operator c.operand = some t := by
  constructor
  · rintro ⟨t, ht⟩
    refine ⟨t, ?_⟩
    rw [ht]
    exact Test.of?_operator_operand t
  · rintro ⟨t, ht⟩
    obtain ⟨ho, hx⟩ := Test.of?_eq_some ht
    exact ⟨t, by rw [ofTest, ho, hx]⟩

/-- A comparison that is made of a test fits. -/
theorem fits_ofTest (path : Path) (t : Test Path) : (ofTest path t).Fits := ⟨t, rfl⟩

end Comparison

namespace Predicate

mutual

/-- The comparisons of a predicate. -/
def leaves : Predicate → List Comparison
  | .comparison c => [c]
  | .and ps => leavesOf ps
  | .or ps => leavesOf ps
  | .not p => leaves p

/-- The comparisons of some predicates. -/
def leavesOf : List Predicate → List Comparison
  | [] => []
  | p :: ps => leaves p ++ leavesOf ps

end

/-- Predicates have their leaves one behind the other. -/
theorem leavesOf_append (ps qs : List Predicate) :
    leavesOf (ps ++ qs) = leavesOf ps ++ leavesOf qs := by
  induction ps with
  | nil => rfl
  | cons p ps ih => simp only [List.cons_append, leavesOf, ih, List.append_assoc]

/-- The leaves of some predicates are those of each. -/
theorem mem_leavesOf {ps : List Predicate} {c : Comparison} :
    c ∈ leavesOf ps ↔ ∃ p ∈ ps, c ∈ p.leaves := by
  induction ps with
  | nil => simp [leavesOf]
  | cons p ps ih => simp [leavesOf, ih]

/-- A predicate has the leaves of its conjuncts. -/
@[simp]
theorem leavesOf_conjuncts (p : Predicate) : leavesOf p.conjuncts = p.leaves := by
  cases p <;> simp [conjuncts, leaves, leavesOf]

/-- A predicate has the leaves of its disjuncts. -/
@[simp]
theorem leavesOf_disjuncts (p : Predicate) : leavesOf p.disjuncts = p.leaves := by
  cases p <;> simp [disjuncts, leaves, leavesOf]

/-- **A conjunction has the leaves of both its parts in order.** -/
theorem leaves_conj (p q : Predicate) : (p.conj q).leaves = p.leaves ++ q.leaves := by
  rw [conj, leaves, leavesOf_append, leavesOf_conjuncts, leavesOf_conjuncts]

/-- **A disjunction has the leaves of both its parts in order.** -/
theorem leaves_disj (p q : Predicate) : (p.disj q).leaves = p.leaves ++ q.leaves := by
  rw [disj, leaves, leavesOf_append, leavesOf_disjuncts, leavesOf_disjuncts]

/-- What has been gathered is the conjunction of at least one predicate. -/
theorem all_eq_ok {ps : List Predicate} {p : Predicate} :
    all ps = .ok p ↔ ps ≠ [] ∧ .and ps = p := by
  cases ps <;> simp [all]

/-- What has been gathered is the disjunction of at least one predicate. -/
theorem any_eq_ok {ps : List Predicate} {p : Predicate} :
    any ps = .ok p ↔ ps ≠ [] ∧ .or ps = p := by
  cases ps <;> simp [any]

end Predicate

/-! ### Computations that may fail -/

section

variable {ε α β : Type} {x : Except ε α} {f : α → Except ε β}

/-- Both steps of a computation that succeeds have succeeded. -/
theorem Except.bind_eq_ok_iff {b : β} :
    x >>= f = .ok b ↔ ∃ a, x = .ok a ∧ f a = .ok b := by
  cases x with
  | error e => simp [bind, Except.bind]
  | ok a => simp [bind, Except.bind]

/-- A computation that fails has failed in its first step or in its second. -/
theorem Except.bind_eq_error_iff {e : ε} :
    x >>= f = .error e ↔ x = .error e ∨ ∃ a, x = .ok a ∧ f a = .error e := by
  cases x with
  | error e' => simp [bind, Except.bind]
  | ok a => simp [bind, Except.bind]

/-- A list is done with if every item of it is. -/
theorem Except.mapM_eq_ok_iff {xs : List α} {ys : List β} :
    xs.mapM f = .ok ys ↔ List.Forall₂ (fun x y => f x = .ok y) xs ys := by
  induction xs generalizing ys with
  | nil => simp [pure, Except.pure, eq_comm]
  | cons x xs ih =>
    simp only [List.mapM_cons, Except.bind_eq_ok_iff, ih, List.forall₂_cons_left_iff, pure,
      Except.pure, Except.ok.injEq]
    constructor
    · rintro ⟨y, hy, rest, hrest, rfl⟩
      exact ⟨y, rest, hy, hrest, rfl⟩
    · rintro ⟨y, rest, hy, hrest, rfl⟩
      exact ⟨y, hy, rest, hrest, rfl⟩

/-- A list fails with the error of its first item that fails. -/
theorem Except.mapM_eq_error_iff {xs : List α} {e : ε} :
    xs.mapM f = .error e ↔
      ∃ before x after ys, xs = before ++ x :: after ∧ before.mapM f = .ok ys ∧
        f x = .error e := by
  constructor
  · intro h
    induction xs with
    | nil => cases h
    | cons x xs ih =>
      rw [List.mapM_cons] at h
      rcases Except.bind_eq_error_iff.1 h with hx | ⟨y, hx, h⟩
      · exact ⟨[], x, xs, [], rfl, rfl, hx⟩
      · rcases Except.bind_eq_error_iff.1 h with hxs | ⟨rest, -, h⟩
        · obtain ⟨before, z, after, ys, rfl, hbefore, hz⟩ := ih hxs
          exact ⟨x :: before, z, after, y :: ys, rfl, by rw [List.mapM_cons, hx, hbefore]; rfl, hz⟩
        · cases h
  · rintro ⟨before, x, after, ys, rfl, hbefore, hx⟩
    rw [List.mapM_append, hbefore, List.mapM_cons, hx]
    rfl

end

namespace Condition

/-! ### What a condition puts together -/

section Inversion

variable {path : Path} {t : Test Path} {a b x : Condition} {xs : List Condition}
  {p : Predicate} {ps : List Predicate}

/-- A test makes a comparison. -/
theorem predicate_test_eq_ok :
    (test path t).predicate = .ok p ↔ .comparison (.ofTest path t) = p := by
  simp [predicate]

/-- A conjunction needs both its parts, and splices them. -/
theorem predicate_and_eq_ok :
    (and a b).predicate = .ok p ↔
      ∃ q r, a.predicate = .ok q ∧ b.predicate = .ok r ∧ q.conj r = p := by
  simp [predicate, Except.bind_eq_ok_iff, pure, Except.pure]

/-- A disjunction needs both its parts, and splices them. -/
theorem predicate_or_eq_ok :
    (or a b).predicate = .ok p ↔
      ∃ q r, a.predicate = .ok q ∧ b.predicate = .ok r ∧ q.disj r = p := by
  simp [predicate, Except.bind_eq_ok_iff, pure, Except.pure]

/-- A negation needs what it negates. -/
theorem predicate_not_eq_ok :
    (not x).predicate = .ok p ↔ ∃ q, x.predicate = .ok q ∧ .not q = p := by
  simp [predicate, Except.bind_eq_ok_iff, pure, Except.pure]

/-- A conjunction of a list needs all its parts, and at least one. -/
theorem predicate_all_eq_ok :
    (all xs).predicate = .ok p ↔ ∃ ps, predicates xs = .ok ps ∧ ps ≠ [] ∧ .and ps = p := by
  simp [predicate, Except.bind_eq_ok_iff, Predicate.all_eq_ok]

/-- A disjunction of a list needs all its parts, and at least one. -/
theorem predicate_any_eq_ok :
    (any xs).predicate = .ok p ↔ ∃ ps, predicates xs = .ok ps ∧ ps ≠ [] ∧ .or ps = p := by
  simp [predicate, Except.bind_eq_ok_iff, Predicate.any_eq_ok]

theorem predicates_nil_eq_ok : predicates [] = .ok ps ↔ [] = ps := by
  simp [predicates]

/-- A list of conditions makes predicates if the first does and the others do. -/
theorem predicates_cons_eq_ok :
    predicates (x :: xs) = .ok ps ↔
      ∃ q qs, x.predicate = .ok q ∧ predicates xs = .ok qs ∧ q :: qs = ps := by
  simp [predicates, Except.bind_eq_ok_iff, pure, Except.pure]

end Inversion

/-! ### Leaves -/

mutual

/-- The comparisons of a condition. -/
def leaves : Condition → List Comparison
  | .test path t => [.ofTest path t]
  | .and a b => leaves a ++ leaves b
  | .or a b => leaves a ++ leaves b
  | .not x => leaves x
  | .all xs => leavesOf xs
  | .any xs => leavesOf xs

/-- The comparisons of some conditions. -/
def leavesOf : List Condition → List Comparison
  | [] => []
  | x :: xs => leaves x ++ leavesOf xs

end

mutual

/-- Putting a predicate together keeps the leaves. -/
theorem leaves_of_predicate :
    ∀ {x : Condition} {p : Predicate}, x.predicate = .ok p → p.leaves = x.leaves
  | .test _ _, _, h => by
    obtain rfl := predicate_test_eq_ok.1 h
    rfl
  | .and _ _, _, h => by
    obtain ⟨q, r, hq, hr, rfl⟩ := predicate_and_eq_ok.1 h
    rw [Predicate.leaves_conj, leaves_of_predicate hq, leaves_of_predicate hr, leaves]
  | .or _ _, _, h => by
    obtain ⟨q, r, hq, hr, rfl⟩ := predicate_or_eq_ok.1 h
    rw [Predicate.leaves_disj, leaves_of_predicate hq, leaves_of_predicate hr, leaves]
  | .not _, _, h => by
    obtain ⟨q, hq, rfl⟩ := predicate_not_eq_ok.1 h
    rw [Predicate.leaves, leaves_of_predicate hq, leaves]
  | .all _, _, h => by
    obtain ⟨ps, hps, -, rfl⟩ := predicate_all_eq_ok.1 h
    rw [Predicate.leaves, leavesOf_of_predicates hps, leaves]
  | .any _, _, h => by
    obtain ⟨ps, hps, -, rfl⟩ := predicate_any_eq_ok.1 h
    rw [Predicate.leaves, leavesOf_of_predicates hps, leaves]

/-- Putting conditions together keeps their leaves in order. -/
theorem leavesOf_of_predicates :
    ∀ {xs : List Condition} {ps : List Predicate}, predicates xs = .ok ps →
      Predicate.leavesOf ps = leavesOf xs
  | [], _, h => by
    obtain rfl := predicates_nil_eq_ok.1 h
    rfl
  | _ :: _, _, h => by
    obtain ⟨q, qs, hq, hqs, rfl⟩ := predicates_cons_eq_ok.1 h
    rw [Predicate.leavesOf, leaves_of_predicate hq, leavesOf_of_predicates hqs, leavesOf]

end

mutual

/-- Every comparison of a condition fits. -/
theorem fits_of_mem_leaves :
    ∀ (x : Condition) {c : Comparison}, c ∈ x.leaves → c.Fits
  | .test path t, c, h => by
    obtain rfl : c = .ofTest path t := by simpa [leaves] using h
    exact Comparison.fits_ofTest path t
  | .and a b, c, h => by
    rw [leaves, List.mem_append] at h
    exact h.elim (fits_of_mem_leaves a) (fits_of_mem_leaves b)
  | .or a b, c, h => by
    rw [leaves, List.mem_append] at h
    exact h.elim (fits_of_mem_leaves a) (fits_of_mem_leaves b)
  | .not x, c, h => fits_of_mem_leaves x h
  | .all xs, c, h => fits_of_mem_leavesOf xs h
  | .any xs, c, h => fits_of_mem_leavesOf xs h

/-- All comparisons of some conditions fit. -/
theorem fits_of_mem_leavesOf :
    ∀ (xs : List Condition) {c : Comparison}, c ∈ leavesOf xs → c.Fits
  | [], c, h => by simp [leavesOf] at h
  | x :: xs, c, h => by
    rw [leavesOf, List.mem_append] at h
    exact h.elim (fits_of_mem_leaves x) (fits_of_mem_leavesOf xs)

end

end Condition
end EntityQuery
