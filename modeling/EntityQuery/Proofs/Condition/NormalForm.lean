/-
# The normal form of conditions

Joining two predicates splices their parts, so *and* and *or* build flat trees.  What that means
is said here of all nodes of a tree (`Predicate.nodes`).  Whatever a condition is put together
from, each of its conjunctions and disjunctions has a part (`Condition.filled_of_predicate`).  If
it is put together from tests with *and*, *or* and *not* alone, each of them has two parts at
least, and none of its own kind (`Condition.flat_of_plain`).

Such a tree is a normal form: two conditions of this kind put together the same predicate exactly
if they are the same but for the grouping of *and* and *or*, at any depth
(`Condition.regrouped_iff`).  The grouping shows in no query (`Condition.flat_normal_form`).
-/

import EntityQuery.Criteria.Compile
import EntityQuery.Proofs.Condition.Leaves
import EntityQuery.Proofs.Draft.Trace

namespace EntityQuery

namespace Predicate

/-! ### Nodes -/

mutual

/-- A predicate and all that it is made of. -/
def nodes : Predicate → List Predicate
  | .comparison c => [.comparison c]
  | .and ps => .and ps :: nodesOf ps
  | .or ps => .or ps :: nodesOf ps
  | .not p => .not p :: nodes p

/-- Some predicates and all that they are made of. -/
def nodesOf : List Predicate → List Predicate
  | [] => []
  | p :: ps => nodes p ++ nodesOf ps

end

/-- A property of all nodes of a predicate. -/
def Everywhere (P : Predicate → Prop) (p : Predicate) : Prop := ∀ n ∈ p.nodes, P n

variable {P : Predicate → Prop} {p q : Predicate} {ps : List Predicate}

/-- The nodes of some predicates are those of each. -/
theorem mem_nodesOf {n : Predicate} : n ∈ nodesOf ps ↔ ∃ p ∈ ps, n ∈ p.nodes := by
  induction ps with
  | nil => simp [nodesOf]
  | cons p ps ih => simp [nodesOf, ih]

/-- What holds everywhere in a predicate holds of itself. -/
theorem Everywhere.self (h : p.Everywhere P) : P p := by
  refine h p ?_
  cases p <;> simp [nodes]

/-- A comparison has no other node than itself. -/
theorem everywhere_comparison {c : Comparison} :
    (comparison c).Everywhere P ↔ P (.comparison c) := by
  simp [Everywhere, nodes]

/-- A conjunction has the nodes of its parts beside itself. -/
theorem everywhere_and :
    (and ps).Everywhere P ↔ P (.and ps) ∧ ∀ p ∈ ps, p.Everywhere P := by
  simp only [Everywhere, nodes, List.forall_mem_cons, mem_nodesOf]
  grind

/-- A disjunction has the nodes of its parts beside itself. -/
theorem everywhere_or : (or ps).Everywhere P ↔ P (.or ps) ∧ ∀ p ∈ ps, p.Everywhere P := by
  simp only [Everywhere, nodes, List.forall_mem_cons, mem_nodesOf]
  grind

/-- A negation has the nodes of what it negates beside itself. -/
theorem everywhere_not : (not p).Everywhere P ↔ P (.not p) ∧ p.Everywhere P := by
  simp [Everywhere, nodes]

/-- What holds everywhere in a predicate holds everywhere in its parts. -/
theorem Everywhere.conjuncts (h : p.Everywhere P) : ∀ x ∈ p.conjuncts, x.Everywhere P := by
  cases p with
  | and ps => exact (everywhere_and.1 h).2
  | _ => simpa [Predicate.conjuncts] using h

/-- What holds everywhere in a predicate holds everywhere in its disjuncts. -/
theorem Everywhere.disjuncts (h : p.Everywhere P) : ∀ x ∈ p.disjuncts, x.Everywhere P := by
  cases p with
  | or ps => exact (everywhere_or.1 h).2
  | _ => simpa [Predicate.disjuncts] using h

/-- Joining two predicates makes one new node. -/
theorem Everywhere.conj (hp : p.Everywhere P) (hq : q.Everywhere P) (h : P (p.conj q)) :
    (p.conj q).Everywhere P :=
  everywhere_and.2 ⟨h, fun x hx => (List.mem_append.1 hx).elim (hp.conjuncts x) (hq.conjuncts x)⟩

/-- What holds everywhere in both parts and of the disjunction holds everywhere in it. -/
theorem Everywhere.disj (hp : p.Everywhere P) (hq : q.Everywhere P) (h : P (p.disj q)) :
    (p.disj q).Everywhere P :=
  everywhere_or.2 ⟨h, fun x hx => (List.mem_append.1 hx).elim (hp.disjuncts x) (hq.disjuncts x)⟩

/-! ### Nodes with parts -/

/-- A conjunction or disjunction of at least one predicate. -/
def Filled : Predicate → Prop
  | .and ps => ps ≠ []
  | .or ps => ps ≠ []
  | _ => True

/-- A conjunction or disjunction of at least two predicates, none of them of its own kind. -/
def Flat : Predicate → Prop
  | .and ps => 2 ≤ ps.length ∧ ∀ p ∈ ps, ∀ qs, p ≠ .and qs
  | .or ps => 2 ≤ ps.length ∧ ∀ p ∈ ps, ∀ qs, p ≠ .or qs
  | _ => True

/-- A filled predicate has a conjunct. -/
theorem Filled.conjuncts_ne_nil (h : p.Filled) : p.conjuncts ≠ [] := by
  cases p with
  | and ps => exact h
  | _ => simp [conjuncts]

/-- A filled predicate has a disjunct. -/
theorem Filled.disjuncts_ne_nil (h : p.Filled) : p.disjuncts ≠ [] := by
  cases p with
  | or ps => exact h
  | _ => simp [disjuncts]

/-- Conjoining keeps a predicate filled. -/
theorem Filled.conj (h : p.Filled) (q : Predicate) : (p.conj q).Filled :=
  List.append_ne_nil_of_left_ne_nil h.conjuncts_ne_nil _

/-- Disjoining keeps a predicate filled. -/
theorem Filled.disj (h : p.Filled) (q : Predicate) : (p.disj q).Filled :=
  List.append_ne_nil_of_left_ne_nil h.disjuncts_ne_nil _

/-- What is flat is filled: two parts are more than none. -/
theorem Flat.filled (h : p.Flat) : p.Filled := by
  cases p with
  | and ps =>
    have hlen : 2 ≤ ps.length := h.1
    rintro rfl
    exact absurd hlen (by decide)
  | or ps =>
    have hlen : 2 ≤ ps.length := h.1
    rintro rfl
    exact absurd hlen (by decide)
  | _ => trivial

/-- No conjunct of a flat predicate is a conjunction itself. -/
theorem Flat.ne_and_of_mem_conjuncts (h : p.Flat) {x : Predicate} (hx : x ∈ p.conjuncts)
    (qs : List Predicate) : x ≠ .and qs := by
  cases p with
  | and ps => exact h.2 x hx qs
  | _ =>
    obtain rfl := List.mem_singleton.1 hx
    simp

/-- No disjunct of a flat predicate is a disjunction itself. -/
theorem Flat.ne_or_of_mem_disjuncts (h : p.Flat) {x : Predicate} (hx : x ∈ p.disjuncts)
    (qs : List Predicate) : x ≠ .or qs := by
  cases p with
  | or ps => exact h.2 x hx qs
  | _ =>
    obtain rfl := List.mem_singleton.1 hx
    simp

/-- Two lists with an element each have two elements together. -/
theorem two_le_length_append {α : Type} {xs ys : List α} (hxs : xs ≠ []) (hys : ys ≠ []) :
    2 ≤ (xs ++ ys).length := by
  have hx := List.length_pos_of_ne_nil hxs
  have hy := List.length_pos_of_ne_nil hys
  rw [List.length_append]
  omega

/-- **Flat predicates conjoin to a flat one,** since both are spliced. -/
theorem Flat.conj (hp : p.Flat) (hq : q.Flat) : (p.conj q).Flat :=
  ⟨two_le_length_append hp.filled.conjuncts_ne_nil hq.filled.conjuncts_ne_nil, fun _ hx =>
    (List.mem_append.1 hx).elim hp.ne_and_of_mem_conjuncts hq.ne_and_of_mem_conjuncts⟩

/-- **Flat predicates disjoin to a flat one,** since both are spliced. -/
theorem Flat.disj (hp : p.Flat) (hq : q.Flat) : (p.disj q).Flat :=
  ⟨two_le_length_append hp.filled.disjuncts_ne_nil hq.filled.disjuncts_ne_nil, fun _ hx =>
    (List.mem_append.1 hx).elim hp.ne_or_of_mem_disjuncts hq.ne_or_of_mem_disjuncts⟩

end Predicate

namespace Condition

/-! ### Shapes of conditions -/

mutual

/-- **Every connective of a condition has a part,** however the condition is put together. -/
theorem filled_of_predicate :
    ∀ {x : Condition} {p : Predicate}, x.predicate = .ok p → p.Everywhere Predicate.Filled
  | .test _ _, _, h => by
    obtain rfl := predicate_test_eq_ok.1 h
    exact Predicate.everywhere_comparison.2 trivial
  | .and _ _, _, h => by
    obtain ⟨q, r, hq, hr, rfl⟩ := predicate_and_eq_ok.1 h
    have hfilled := filled_of_predicate hq
    exact hfilled.conj (filled_of_predicate hr) (hfilled.self.conj r)
  | .or _ _, _, h => by
    obtain ⟨q, r, hq, hr, rfl⟩ := predicate_or_eq_ok.1 h
    have hfilled := filled_of_predicate hq
    exact hfilled.disj (filled_of_predicate hr) (hfilled.self.disj r)
  | .not _, _, h => by
    obtain ⟨q, hq, rfl⟩ := predicate_not_eq_ok.1 h
    exact Predicate.everywhere_not.2 ⟨trivial, filled_of_predicate hq⟩
  | .all _, _, h => by
    obtain ⟨ps, hps, hne, rfl⟩ := predicate_all_eq_ok.1 h
    exact Predicate.everywhere_and.2 ⟨hne, filled_of_predicates hps⟩
  | .any _, _, h => by
    obtain ⟨ps, hps, hne, rfl⟩ := predicate_any_eq_ok.1 h
    exact Predicate.everywhere_or.2 ⟨hne, filled_of_predicates hps⟩

/-- Every connective of some conditions has a part. -/
theorem filled_of_predicates :
    ∀ {xs : List Condition} {ps : List Predicate}, predicates xs = .ok ps →
      ∀ p ∈ ps, p.Everywhere Predicate.Filled
  | [], _, h => by
    obtain rfl := predicates_nil_eq_ok.1 h
    simp
  | _ :: _, _, h => by
    obtain ⟨q, qs, hq, hqs, rfl⟩ := predicates_cons_eq_ok.1 h
    exact List.forall_mem_cons.2 ⟨filled_of_predicate hq, filled_of_predicates hqs⟩

end

/-- Whether a condition is put together from tests with *and*, *or* and *not* alone. -/
def Plain : Condition → Prop
  | .test _ _ => True
  | .and a b => Plain a ∧ Plain b
  | .or a b => Plain a ∧ Plain b
  | .not x => Plain x
  | .all _ => False
  | .any _ => False

/-- **Plain conditions put together flat predicates.** -/
theorem flat_of_plain :
    ∀ {x : Condition}, x.Plain → ∃ p, x.predicate = .ok p ∧ p.Everywhere Predicate.Flat
  | .test path t, _ =>
    ⟨.comparison (.ofTest path t), predicate_test_eq_ok.2 rfl,
      Predicate.everywhere_comparison.2 trivial⟩
  | .and _ _, h => by
    obtain ⟨q, hq, hqflat⟩ := flat_of_plain h.1
    obtain ⟨r, hr, hrflat⟩ := flat_of_plain h.2
    exact ⟨q.conj r, predicate_and_eq_ok.2 ⟨q, r, hq, hr, rfl⟩,
      hqflat.conj hrflat (hqflat.self.conj hrflat.self)⟩
  | .or _ _, h => by
    obtain ⟨q, hq, hqflat⟩ := flat_of_plain h.1
    obtain ⟨r, hr, hrflat⟩ := flat_of_plain h.2
    exact ⟨q.disj r, predicate_or_eq_ok.2 ⟨q, r, hq, hr, rfl⟩,
      hqflat.disj hrflat (hqflat.self.disj hrflat.self)⟩
  | .not x, h => by
    have hx : x.Plain := h
    obtain ⟨q, hq, hqflat⟩ := flat_of_plain hx
    exact ⟨.not q, predicate_not_eq_ok.2 ⟨q, hq, rfl⟩,
      Predicate.everywhere_not.2 ⟨trivial, hqflat⟩⟩

/-! ### Grouping -/

/-- Conditions that are the same but for the grouping of *and* and of *or*, at any depth. -/
inductive Regrouped : Condition → Condition → Prop
  | refl (x : Condition) : Regrouped x x
  | symm {x y : Condition} : Regrouped x y → Regrouped y x
  | trans {x y z : Condition} : Regrouped x y → Regrouped y z → Regrouped x z
  | and_assoc (a b c : Condition) : Regrouped (.and (.and a b) c) (.and a (.and b c))
  | or_assoc (a b c : Condition) : Regrouped (.or (.or a b) c) (.or a (.or b c))
  | and {a a' b b' : Condition} :
    Regrouped a a' → Regrouped b b' → Regrouped (.and a b) (.and a' b')
  | or {a a' b b' : Condition} :
    Regrouped a a' → Regrouped b b' → Regrouped (.or a b) (.or a' b')
  | not {x y : Condition} : Regrouped x y → Regrouped (.not x) (.not y)
  | all (before after : List Condition) {x y : Condition} :
    Regrouped x y → Regrouped (.all (before ++ x :: after)) (.all (before ++ y :: after))
  | any (before after : List Condition) {x y : Condition} :
    Regrouped x y → Regrouped (.any (before ++ x :: after)) (.any (before ++ y :: after))

/-- Conditions that make one predicate can stand for each other in a list. -/
theorem predicates_congr {x y : Condition} (h : x.predicate = y.predicate)
    (before after : List Condition) :
    predicates (before ++ x :: after) = predicates (before ++ y :: after) := by
  induction before with
  | nil => rw [List.nil_append, List.nil_append, predicates, predicates, h]
  | cons z before ih => rw [List.cons_append, List.cons_append, predicates, predicates, ih]

/-- **The grouping does not show in the predicate.** -/
theorem Regrouped.predicate_eq {x y : Condition} (h : x.Regrouped y) :
    x.predicate = y.predicate := by
  induction h with
  | refl => rfl
  | symm _ ih => exact ih.symm
  | trans _ _ ih₁ ih₂ => exact ih₁.trans ih₂
  | and_assoc a b c => simp only [predicate, bind_assoc, pure_bind, Predicate.conj_assoc]
  | or_assoc a b c => simp only [predicate, bind_assoc, pure_bind, Predicate.disj_assoc]
  | and _ _ iha ihb => rw [predicate, predicate, iha, ihb]
  | or _ _ iha ihb => rw [predicate, predicate, iha, ihb]
  | not _ ih => rw [predicate, predicate, ih]
  | all before after _ ih => rw [predicate, predicate, predicates_congr ih]
  | any before after _ ih => rw [predicate, predicate, predicates_congr ih]

/-! ### Conditions from predicates -/

/-- Some conditions joined two at a time, grouped from the right. -/
def chain (join : Condition → Condition → Condition) : List Condition → Condition
  | [] => .all []
  | [x] => x
  | x :: y :: ys => join x (chain join (y :: ys))

/-- A chain is its first condition joined to the chain of the others. -/
theorem chain_cons (join : Condition → Condition → Condition) (x : Condition)
    {ys : List Condition} (h : ys ≠ []) : chain join (x :: ys) = join x (chain join ys) := by
  cases ys with
  | nil => exact absurd rfl h
  | cons y ys => rfl

/-- Two chains that are joined are one chain but for the grouping. -/
theorem regrouped_chain {join : Condition → Condition → Condition}
    (hassoc : ∀ a b c, Regrouped (join (join a b) c) (join a (join b c)))
    (hright : ∀ a {b b'}, Regrouped b b' → Regrouped (join a b) (join a b'))
    {xs ys : List Condition} (hxs : xs ≠ []) (hys : ys ≠ []) :
    Regrouped (join (chain join xs) (chain join ys)) (chain join (xs ++ ys)) := by
  induction xs with
  | nil => exact absurd rfl hxs
  | cons x xs ih =>
    rcases eq_or_ne xs [] with rfl | hxs'
    · rw [List.singleton_append, chain_cons join x hys]
      exact .refl _
    · rw [chain_cons join x hxs', List.cons_append,
        chain_cons join x (List.append_ne_nil_of_left_ne_nil hxs' ys)]
      exact (hassoc _ _ _).trans (hright x (ih hxs'))

mutual

/-- A plain condition that puts a predicate together. -/
def ofPredicate : Predicate → Condition
  | .comparison c => .test c.path ((Test.of? c.operator c.operand).getD .isNull)
  | .and ps => chain .and (ofPredicates ps)
  | .or ps => chain .or (ofPredicates ps)
  | .not p => .not (ofPredicate p)

/-- Conditions for some predicates. -/
def ofPredicates : List Predicate → List Condition
  | [] => []
  | p :: ps => ofPredicate p :: ofPredicates ps

end

/-- Predicates have their conditions one behind the other. -/
theorem ofPredicates_append (ps qs : List Predicate) :
    ofPredicates (ps ++ qs) = ofPredicates ps ++ ofPredicates qs := by
  induction ps with
  | nil => rfl
  | cons p ps ih => rw [List.cons_append, ofPredicates, ofPredicates, ih, List.cons_append]

/-- Some predicates have some conditions. -/
theorem ofPredicates_ne_nil {ps : List Predicate} (h : ps ≠ []) : ofPredicates ps ≠ [] := by
  cases ps with
  | nil => exact absurd rfl h
  | cons p ps => exact List.cons_ne_nil _ _

/-- The condition of a predicate is the chain of its conjuncts' conditions. -/
theorem ofPredicate_conjuncts (p : Predicate) :
    ofPredicate p = chain .and (ofPredicates p.conjuncts) := by
  cases p <;> rfl

/-- The condition of a predicate is the chain of its disjuncts' conditions. -/
theorem ofPredicate_disjuncts (p : Predicate) :
    ofPredicate p = chain .or (ofPredicates p.disjuncts) := by
  cases p <;> rfl

/-- The condition of a conjunction is the conjunction of the conditions, but for the grouping. -/
theorem regrouped_ofPredicate_conj {p q : Predicate} (hp : p.Filled) (hq : q.Filled) :
    Regrouped (.and (ofPredicate p) (ofPredicate q)) (ofPredicate (p.conj q)) := by
  rw [ofPredicate_conjuncts p, ofPredicate_conjuncts q, Predicate.conj, ofPredicate,
    ofPredicates_append]
  exact regrouped_chain .and_assoc (fun a => .and (.refl a))
    (ofPredicates_ne_nil hp.conjuncts_ne_nil) (ofPredicates_ne_nil hq.conjuncts_ne_nil)

/-- The condition of a disjunction is the disjunction of the conditions, but for the grouping. -/
theorem regrouped_ofPredicate_disj {p q : Predicate} (hp : p.Filled) (hq : q.Filled) :
    Regrouped (.or (ofPredicate p) (ofPredicate q)) (ofPredicate (p.disj q)) := by
  rw [ofPredicate_disjuncts p, ofPredicate_disjuncts q, Predicate.disj, ofPredicate,
    ofPredicates_append]
  exact regrouped_chain .or_assoc (fun a => .or (.refl a))
    (ofPredicates_ne_nil hp.disjuncts_ne_nil) (ofPredicates_ne_nil hq.disjuncts_ne_nil)

/-- A plain condition can be read off its predicate, but for the grouping. -/
theorem Plain.regrouped : ∀ {x : Condition} {p : Predicate}, x.Plain → x.predicate = .ok p →
    Regrouped x (ofPredicate p)
  | .test path t, _, _, h => by
    obtain rfl := predicate_test_eq_ok.1 h
    rw [ofPredicate, Comparison.ofTest, Test.of?_operator_operand]
    exact .refl _
  | .and _ _, _, hx, h => by
    obtain ⟨q, r, hq, hr, rfl⟩ := predicate_and_eq_ok.1 h
    exact (Regrouped.and (hx.1.regrouped hq) (hx.2.regrouped hr)).trans
      (regrouped_ofPredicate_conj (filled_of_predicate hq).self (filled_of_predicate hr).self)
  | .or _ _, _, hx, h => by
    obtain ⟨q, r, hq, hr, rfl⟩ := predicate_or_eq_ok.1 h
    exact (Regrouped.or (hx.1.regrouped hq) (hx.2.regrouped hr)).trans
      (regrouped_ofPredicate_disj (filled_of_predicate hq).self (filled_of_predicate hr).self)
  | .not x, _, hnot, h => by
    have hx : x.Plain := hnot
    obtain ⟨q, hq, rfl⟩ := predicate_not_eq_ok.1 h
    exact .not (hx.regrouped hq)

/-- **Plain conditions are told apart by their predicates,** but for the grouping. -/
theorem regrouped_iff {x y : Condition} (hx : x.Plain) (hy : y.Plain) :
    x.Regrouped y ↔ x.predicate = y.predicate := by
  refine ⟨Regrouped.predicate_eq, fun h => ?_⟩
  obtain ⟨p, hp, -⟩ := flat_of_plain hx
  exact (hx.regrouped hp).trans (hy.regrouped (h ▸ hp)).symm

/-- **Joining builds a flat normal form that keeps the order.**  Three predicates joined in
either grouping are the same tree, and so are conditions regrouped at any depth, which makes no
difference to any query that has one of them as a condition of the root or of a join.  Joining
puts the leaves of the parts behind one another, and a condition has the leaves of its tests in
order and a part in each connective.  Plain conditions put together flat predicates, and the same
predicate only if they are regrouped. -/
theorem flat_normal_form :
    (∀ p q r : Predicate,
      (p.conj q).conj r = p.conj (q.conj r) ∧ (p.disj q).disj r = p.disj (q.disj r) ∧
      (p.conj q).leaves = p.leaves ++ q.leaves ∧ (p.disj q).leaves = p.leaves ++ q.leaves) ∧
    (∀ x y : Condition, x.Regrouped y → x.predicate = y.predicate ∧
      ∀ (root : Source) columns before after, ∀ step ∈ [Step.filter, Step.restrict],
        (x.predicate.map fun p => ((Draft.ofRoot root).run? (before ++ step p :: after)).map
          (·.criteria.compile columns)) =
        (y.predicate.map fun p => ((Draft.ofRoot root).run? (before ++ step p :: after)).map
          (·.criteria.compile columns))) ∧
    (∀ (x : Condition) p, x.predicate = .ok p →
      p.leaves = x.leaves ∧ p.Everywhere Predicate.Filled) ∧
    (∀ x : Condition, x.Plain → ∃ p, x.predicate = .ok p ∧ p.Everywhere Predicate.Flat) ∧
    ∀ x y : Condition, x.Plain → y.Plain → x.predicate = y.predicate → x.Regrouped y := by
  refine ⟨fun p q r => ⟨Predicate.conj_assoc p q r, Predicate.disj_assoc p q r,
    Predicate.leaves_conj p q, Predicate.leaves_disj p q⟩, fun x y h => ?_,
    fun x p hp => ⟨leaves_of_predicate hp, filled_of_predicate hp⟩, fun x => flat_of_plain,
    fun x y hx hy => (regrouped_iff hx hy).2⟩
  have hsame : x.predicate = y.predicate := h.predicate_eq
  refine ⟨hsame, fun root columns before after step _ => ?_⟩
  rw [hsame]

/-- Two groupings of one condition, with a disjunction in a conjunction and a negation between,
put together one flat predicate with three parts at the top; with its operands swapped the
condition is another one. -/
theorem flat_normal_form_groupings :
    let a : Condition := .test (.ofColumn "name") .isNull
    let b : Condition := .test (.ofColumn "age") (.isIn [])
    let c : Condition := .test (.ofColumn "name") (.like "r%")
    let x : Condition := .and (.and (.or (.or a b) c) (.not (.and a b))) b
    let y : Condition := .and (.or a (.or b c)) (.and (.not (.and a b)) b)
    let z : Condition := .and b (.and (.or (.or a b) c) (.not (.and a b)))
    ∃ p, x.predicate = .ok p ∧ y.predicate = .ok p ∧ p.Everywhere Predicate.Flat ∧
      p.Everywhere Predicate.Filled ∧ p.leaves = x.leaves ∧ p.conjuncts.length = 3 ∧
      x.Regrouped y ∧ ¬ x.Regrouped z := by
  intro a b c x y z
  have hx : x.Plain := by simp [x, a, b, c, Plain]
  have hy : y.Plain := by simp [y, a, b, c, Plain]
  obtain ⟨-, hregrouped, hparts, hflat, hback⟩ := flat_normal_form
  obtain ⟨p, hp, hpflat⟩ := hflat x hx
  have hsame : x.predicate = y.predicate := rfl
  obtain ⟨hleaves, hfilled⟩ := hparts x p hp
  have hlength : p.conjuncts.length = 3 := by
    rw [← Except.ok.inj hp]
    rfl
  refine ⟨p, hp, hsame ▸ hp, hpflat, hfilled, hleaves, hlength, hback x y hx hy hsame, fun h => ?_⟩
  -- swapped, the condition would have its leaves in another order
  obtain ⟨hz, -⟩ := hparts z p ((hregrouped x z h).1 ▸ hp)
  exact absurd (hleaves.symm.trans hz) (by decide)

end Condition
end EntityQuery
