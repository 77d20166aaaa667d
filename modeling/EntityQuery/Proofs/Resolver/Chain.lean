/-
# Chains of relations over a schema

A schema says which entities there are and how they are associated.  An entity has at most
one association under a name, but the names are free text.  A chain of relations is read
along the schema: each relation has to be that of the entity which the ones before it lead
to (`Schema.follow`).

The name that a chain ends under is its start followed by the names of its relations, with
two underscores before each.  Different chains may end under the same name if the names of
relations hold underscores (`Schema.Unambiguous` excludes it); they do not if no name ends
in an underscore or holds two in a row (`Schema.unambiguous_of_plain`).
-/

import EntityQuery.Proofs.Resolver.Run
import Mathlib.Data.List.Induction

namespace EntityQuery

open Resolver

/-- An association of an entity with a target. -/
structure Association (ε : Type) where
  target : ε
  localColumn : String
  remoteColumn : String

/-- Entities with their sources and their associations by name. -/
structure Schema (ε : Type) where
  source : ε → Source
  association : ε → String → Option (Association ε)

namespace Schema

variable {ε : Type} (S : Schema ε)

/-- The relation of an association. -/
def relation (name : String) (a : Association ε) : Relation :=
  ⟨name, a.localColumn, a.remoteColumn, S.source a.target⟩

/-- Where a relation leads to from an entity that has it. -/
def next (e : ε) (hop : Relation) : Option ε :=
  (S.association e hop.name).bind fun a =>
    if hop = S.relation hop.name a then some a.target else none

/-- Where a chain of relations leads to if every entity on the way has its relation. -/
def follow (e : ε) (hops : List Relation) : Option ε := hops.foldlM S.next e

/-- A chain over the schema. -/
def Chain (e : ε) (hops : List Relation) : Prop := ∃ e', S.follow e hops = some e'

variable {S} {e e' e₁ e₂ : ε} {hop hop₁ hop₂ : Relation} {hops hops₁ hops₂ : List Relation}

/-- An entity has one relation of a name. -/
theorem eq_of_next (h₁ : S.next e hop₁ = some e₁) (h₂ : S.next e hop₂ = some e₂)
    (hname : hop₁.name = hop₂.name) : hop₁ = hop₂ := by
  obtain ⟨a, ha, h₁⟩ := Option.bind_eq_some_iff.1 h₁
  obtain ⟨b, hb, h₂⟩ := Option.bind_eq_some_iff.1 h₂
  obtain rfl : a = b := Option.some.inj (ha.symm.trans (hname ▸ hb))
  have hr₁ : hop₁ = S.relation hop₁.name a := by by_contra hne; simp [hne] at h₁
  have hr₂ : hop₂ = S.relation hop₂.name a := by by_contra hne; simp [hne] at h₂
  rw [hr₁, hr₂, hname]

/-- A relation leads to the source of the entity at its end. -/
theorem source_next (h : S.next e hop = some e') : hop.target = S.source e' := by
  obtain ⟨a, -, h⟩ := Option.bind_eq_some_iff.1 h
  split_ifs at h with hr
  obtain rfl : a.target = e' := Option.some.inj h
  rw [hr, relation]

/-- A chain is followed up to its last relation, and then along that. -/
theorem follow_append_singleton (S : Schema ε) (e : ε) (hops : List Relation)
    (hop : Relation) :
    S.follow e (hops ++ [hop]) = (S.follow e hops).bind fun e' => S.next e' hop := by
  simp [follow, Option.bind_eq_bind]

/-- A chain over the schema ends with the source of the entity that it leads to. -/
theorem endSource_eq (h : S.follow e hops = some e') :
    endSource (S.source e) hops = S.source e' := by
  induction hops using List.reverseRecOn generalizing e' with
  | nil =>
    obtain rfl : e = e' := by simpa [follow] using h
    rfl
  | append_singleton hops hop ih =>
    rw [follow_append_singleton] at h
    obtain ⟨e₁, -, h⟩ := Option.bind_eq_some_iff.1 h
    rw [endSource, List.foldl_append]
    exact source_next h

/-- The beginning of a chain is a chain. -/
theorem Chain.of_append (h : S.Chain e (hops₁ ++ hops₂)) : S.Chain e hops₁ := by
  obtain ⟨e', h⟩ := h
  rw [follow, List.foldlM_append] at h
  obtain ⟨e₁, h₁, -⟩ := Option.bind_eq_some_iff.1 h
  exact ⟨e₁, h₁⟩

end Schema

/-! ### Names along a chain -/

namespace Resolver

variable {parent : String} {hop : Relation} {hops hops₁ hops₂ : List Relation} {s : Stop}

/-- The name at the end of a chain is made in two parts. -/
theorem endName_append (parent : String) (hops₁ hops₂ : List Relation) :
    endName parent (hops₁ ++ hops₂) = endName (endName parent hops₁) hops₂ :=
  List.foldl_append

/-- Every relation makes the name longer. -/
theorem length_endName (parent : String) (hops : List Relation) :
    parent.length + 2 * hops.length ≤ (endName parent hops).length := by
  induction hops generalizing parent with
  | nil => simp [endName]
  | cons hop hops ih =>
    have h := ih (hopName parent hop)
    have hl : (hopName parent hop).length = parent.length + 2 + hop.name.length := by
      simp only [hopName, String.length_append]
      rfl
    simp only [endName, List.foldl_cons, List.length_cons] at h ⊢
    omega

/-- The stops of a walk are the relations of its chain, each behind those before it. -/
theorem mem_stops :
    s ∈ stops parent hops ↔
      ∃ hops₁ hops₂, hops = hops₁ ++ s.hop :: hops₂ ∧ s.parent = endName parent hops₁ := by
  induction hops generalizing parent with
  | nil => simp [stops]
  | cons hop hops ih =>
    rw [stops, List.mem_cons, ih]
    constructor
    · rintro (rfl | ⟨hops₁, hops₂, rfl, hp⟩)
      · exact ⟨[], hops, rfl, rfl⟩
      · exact ⟨hop :: hops₁, hops₂, rfl, hp⟩
    · rintro ⟨_ | ⟨hop₁, hops₁⟩, hops₂, hh, hp⟩
      · rw [List.nil_append, List.cons.injEq] at hh
        obtain ⟨rfl, -⟩ := hh
        left
        rcases s with ⟨p, h⟩
        exact congrArg (Stop.mk · h) hp
      · rw [List.cons_append, List.cons.injEq] at hh
        obtain ⟨rfl, rfl⟩ := hh
        exact .inr ⟨hops₁, hops₂, rfl, hp⟩

/-- A stop goes by the name of the chain that it ends. -/
theorem Stop.name_eq (h : s.parent = endName parent hops) :
    s.name = endName parent (hops ++ [s.hop]) := by
  rw [endName_append, ← h]
  rfl

/-- A stop goes by a longer name than the start. -/
theorem Stop.length_name (hs : s ∈ stops parent hops) : parent.length < s.name.length := by
  obtain ⟨hops₁, hops₂, -, hp⟩ := mem_stops.1 hs
  have hlen := length_endName parent (hops₁ ++ [s.hop])
  rw [← Stop.name_eq hp, List.length_append, List.length_singleton] at hlen
  omega

/-- The stops of one walk go by different names. -/
theorem stop_eq_of_name_eq {t : Stop} (hs : s ∈ stops parent hops)
    (ht : t ∈ stops parent hops) (hname : s.name = t.name) : s = t := by
  induction hops generalizing parent with
  | nil => simp [stops] at hs
  | cons hop hops ih =>
    rw [stops, List.mem_cons] at hs ht
    rcases hs with rfl | hs <;> rcases ht with rfl | ht
    · rfl
    · exact absurd (congrArg String.length hname) (Stop.length_name ht).ne
    · exact absurd (congrArg String.length hname) (Stop.length_name hs).ne'
    · exact ih hs ht

/-- Under one parent, names tell relations apart by their own names. -/
theorem hop_name_eq {hop₁ hop₂ : Relation} (h : hopName parent hop₁ = hopName parent hop₂) :
    hop₁.name = hop₂.name :=
  (String.append_right_inj (parent ++ "__")).1 h

end Resolver

/-! ### Telling chains apart -/

namespace Schema

variable {ε : Type} {S : Schema ε} {e : ε} {q : String} {hops hops' : List Relation}
  {s t : Stop}

/-- Different chains from an entity end under different names. -/
def Unambiguous (S : Schema ε) (e : ε) (q : String) : Prop :=
  ∀ hops hops', S.Chain e hops → S.Chain e hops' → endName q hops = endName q hops' →
    hops = hops'

/-- Where chains are told apart, a name has one stop. -/
theorem Unambiguous.stop_eq (h : S.Unambiguous e q) (hc : S.Chain e hops)
    (hc' : S.Chain e hops') (hs : s ∈ stops q hops) (ht : t ∈ stops q hops')
    (hname : s.name = t.name) : s = t := by
  obtain ⟨c, d, rfl, hp⟩ := mem_stops.1 hs
  obtain ⟨c', d', rfl, hp'⟩ := mem_stops.1 ht
  rw [List.append_cons] at hc hc'
  have hends := h _ _ hc.of_append hc'.of_append (by
    rw [← Stop.name_eq hp, ← Stop.name_eq hp', hname])
  obtain ⟨rfl, hhop⟩ := List.append_inj' hends rfl
  rcases s with ⟨p, hop⟩
  rcases t with ⟨p', hop'⟩
  obtain rfl : hop = hop' := List.singleton_inj.1 hhop
  obtain rfl : p = p' := hp.trans hp'.symm
  rfl

/-! ### Plain names -/

/-- A name that holds no two underscores in a row and does not end in one. -/
def Plain (name : String) : Prop :=
  ¬ ['_', '_'] <:+: name.toList ∧ ¬ ['_'] <:+ name.toList

/-- What follows a name in the name of a chain. -/
def trail (hops : List Relation) : List Char :=
  hops.flatMap fun hop => '_' :: '_' :: hop.name.toList

/-- The name at the end of a chain is its first name with the trail behind it. -/
theorem toList_endName (q : String) (hops : List Relation) :
    (endName q hops).toList = q.toList ++ trail hops := by
  induction hops generalizing q with
  | nil => simp [endName, trail]
  | cons hop hops ih =>
    have h := ih (hopName q hop)
    simp only [endName, List.foldl_cons] at h ⊢
    rw [h]
    simp [hopName, trail]

/-- A trail is empty, or starts with two underscores. -/
theorem trail_cases (hops : List Relation) :
    trail hops = [] ∨ ∃ rest, trail hops = '_' :: '_' :: rest := by
  cases hops with
  | nil => exact .inl rfl
  | cons hop hops => exact .inr ⟨_, rfl⟩

/-- A plain name cannot take in the beginning of a trail. -/
theorem eq_nil_of_trail_eq {n m rest : List Char} (hinner : ¬ ['_', '_'] <:+: n ++ m)
    (hlast : ¬ ['_'] <:+ n ++ m) (h : trail hops = m ++ rest) : m = [] := by
  obtain ht | ⟨u, ht⟩ := trail_cases hops <;> rw [ht] at h
  · exact (List.append_eq_nil_iff.1 h.symm).1
  · rcases m with _ | ⟨a, _ | ⟨b, m⟩⟩
    · rfl
    · obtain ⟨rfl, -⟩ := List.cons.inj h
      exact absurd ⟨n, rfl⟩ hlast
    · obtain ⟨rfl, htail⟩ := List.cons.inj h
      obtain ⟨rfl, -⟩ := List.cons.inj htail
      exact absurd ⟨n, m, by simp⟩ hinner

/-- A plain name ends where the trail behind it begins. -/
theorem eq_of_append_trail_eq {n n' : String} (hn : Plain n) (hn' : Plain n')
    (h : n.toList ++ trail hops = n'.toList ++ trail hops') : n = n' := by
  obtain ⟨m, hm, ht⟩ | ⟨m, hm, ht⟩ := List.append_eq_append_iff.1 h
  · obtain rfl : m = [] := eq_nil_of_trail_eq (hm ▸ hn'.1) (hm ▸ hn'.2) ht
    exact String.toList_inj.1 (by simpa using hm.symm)
  · obtain rfl : m = [] := eq_nil_of_trail_eq (hm ▸ hn.1) (hm ▸ hn.2) ht
    exact String.toList_inj.1 (by simpa using hm)

/-- Over plain names, chains with one trail are the same. -/
theorem eq_of_trail_eq (h : ∀ e name a, S.association e name = some a → Plain name)
    (hc : S.Chain e hops) (hc' : S.Chain e hops') (ht : trail hops = trail hops') :
    hops = hops' := by
  induction hops generalizing e hops' with
  | nil =>
    cases hops' with
    | nil => rfl
    | cons hop' hops' => simp [trail] at ht
  | cons hop hops ih =>
    cases hops' with
    | nil => simp [trail] at ht
    | cons hop' hops' =>
      obtain ⟨e₂, hc⟩ := hc
      obtain ⟨e₂', hc'⟩ := hc'
      rw [follow, List.foldlM_cons] at hc hc'
      obtain ⟨e₁, h₁, hc⟩ := Option.bind_eq_some_iff.1 hc
      obtain ⟨e₁', h₁', hc'⟩ := Option.bind_eq_some_iff.1 hc'
      have ht' : hop.name.toList ++ trail hops = hop'.name.toList ++ trail hops' := by
        simpa [trail] using ht
      obtain ⟨a, ha, -⟩ := Option.bind_eq_some_iff.1 h₁
      obtain ⟨a', ha', -⟩ := Option.bind_eq_some_iff.1 h₁'
      -- the first relations have one name, so they are one and lead to one entity
      have hname := eq_of_append_trail_eq (h _ _ _ ha) (h _ _ _ ha') ht'
      obtain rfl := eq_of_next h₁ h₁' hname
      obtain rfl : e₁ = e₁' := Option.some.inj (h₁.symm.trans h₁')
      rw [ih ⟨e₂, hc⟩ ⟨e₂', hc'⟩ (List.append_cancel_left ht')]

/-- **Plain names tell all chains apart,** under every name of the start. -/
theorem unambiguous_of_plain (h : ∀ e name a, S.association e name = some a → Plain name)
    (e : ε) (q : String) : S.Unambiguous e q := by
  intro hops hops' hc hc' hname
  have htrail : q.toList ++ trail hops = q.toList ++ trail hops' := by
    rw [← toList_endName, ← toList_endName, hname]
  exact eq_of_trail_eq h hc hc' (List.append_cancel_left htrail)

end Schema
end EntityQuery
