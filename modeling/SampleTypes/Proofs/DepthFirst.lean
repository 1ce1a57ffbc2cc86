import Mathlib.Data.List.Lex

/-!
# The first find in depth-first order

A place in a tree is given by the steps that lead to it from the root. Depth-first order is the
lexicographic order of places: what is found at a node comes before all that is found within it,
and all that is found behind one step comes before all that is found behind a later one.

## Main definitions

* `FirstFind` — what is found at a place, with nothing found before it

## Main results

* `FirstFind.root`, `FirstFind.step` — the first find at a node, and behind a step from it
* `FirstFind.among` — the first find within parts that are gone through in order
* `FirstFind.unique`, `FirstFind.not_before` — there is one place of the first find, and nothing is
  found before it
-/

namespace SampleTypes

variable {σ α : Type} {before : σ → σ → Prop}

/-- Something is found at a place, and whatever else is found is found there or later. -/
structure FirstFind (before : σ → σ → Prop) (found : List σ → α → Prop) (place : List σ) (a : α) :
    Prop where
  here : found place a
  first : ∀ place' a', found place' a' → place' = place ∨ List.Lex before place place'

/-- What is found at the root is found first. -/
theorem FirstFind.root {found : List σ → α → Prop} {a : α} (h : found [] a) :
    FirstFind before found [] a := by
  refine ⟨h, fun place' _ _ => ?_⟩
  cases place' with
  | nil => exact .inl rfl
  | cons => exact .inr .nil

/-- The first find behind a step is the first of all if the others are behind the same step or
behind later ones. -/
theorem FirstFind.step {found inner : List σ → α → Prop} {step : σ} {place : List σ} {a : α}
    (h : FirstFind before inner place a) (here : found (step :: place) a)
    (others : ∀ place' a', found place' a' → ∃ step' rest, place' = step' :: rest ∧
      (before step step' ∨ step' = step ∧ inner rest a')) :
    FirstFind before found (step :: place) a := by
  refine ⟨here, fun place' a' h' => ?_⟩
  obtain ⟨step', rest, rfl, later | ⟨rfl, within⟩⟩ := others place' a' h'
  · exact .inr (.rel later)
  · rcases h.first rest a' within with rfl | later
    · exact .inl rfl
    · exact .inr (.cons later)

/-- If nothing is found within the parts before one, the first find within it is the first of
all. -/
theorem FirstFind.among {ν : Type} {parts : List (σ × ν)}
    (ordered : parts.Pairwise fun p q => before p.1 q.1) {within : ν → List σ → α → Prop}
    {found : List σ → α → Prop}
    (split : ∀ place a, found place a ↔
      ∃ p ∈ parts, ∃ rest, place = p.1 :: rest ∧ within p.2 rest a)
    {i : Nat} {p : σ × ν} (hi : parts[i]? = some p)
    (none : ∀ j q, j < i → parts[j]? = some q → ∀ rest a, ¬ within q.2 rest a)
    {place : List σ} {a : α} (h : FirstFind before (within p.2) place a) :
    FirstFind before found (p.1 :: place) a := by
  refine h.step ((split _ _).2 ⟨p, List.mem_of_getElem? hi, place, rfl, h.here⟩) ?_
  intro place' a' h'
  obtain ⟨q, hq, rest, rfl, inner⟩ := (split _ _).1 h'
  obtain ⟨j, hj⟩ := List.mem_iff_getElem?.1 hq
  refine ⟨q.1, rest, rfl, ?_⟩
  rcases Nat.lt_trichotomy j i with earlier | rfl | later
  · exact absurd inner (none j q earlier hj rest a')
  · cases hi.symm.trans hj
    exact .inr ⟨rfl, inner⟩
  · obtain ⟨inI, rfl⟩ := List.getElem?_eq_some_iff.1 hi
    obtain ⟨inJ, rfl⟩ := List.getElem?_eq_some_iff.1 hj
    exact .inl (List.pairwise_iff_getElem.1 ordered i j inI inJ later)

/-- What is told of a find makes no difference for which is the first. -/
theorem FirstFind.map {β : Type} {found : List σ → α → Prop} {place : List σ} {a : α}
    (h : FirstFind before found place a) (f : α → β) :
    FirstFind before (fun place b => ∃ a, found place a ∧ f a = b) place (f a) := by
  refine ⟨⟨a, h.here, rfl⟩, ?_⟩
  rintro place' _ ⟨a', h', rfl⟩
  exact h.first place' a' h'

/-- The first of all finds is the first of some of them if it is one of these. -/
theorem FirstFind.of_subset {found some : List σ → α → Prop} {place : List σ} {a : α}
    (h : FirstFind before found place a) (subset : ∀ place a, some place a → found place a)
    (here : some place a) : FirstFind before some place a :=
  ⟨here, fun place' a' h' => h.first place' a' (subset place' a' h')⟩

theorem FirstFind.not_before [Std.Asymm before] {found : List σ → α → Prop} {place place' : List σ}
    {a a' : α} (h : FirstFind before found place a) (h' : found place' a') :
    ¬ List.Lex before place' place := by
  rcases h.first place' a' h' with rfl | later
  · exact irrefl place'
  · exact asymm later

theorem FirstFind.unique [Std.Asymm before] {found : List σ → α → Prop} {place place' : List σ}
    {a a' : α} (h : FirstFind before found place a) (h' : FirstFind before found place' a') :
    place = place' := by
  rcases h.first _ _ h'.here with same | later
  · exact same.symm
  · rcases h'.first _ _ h.here with same | earlier
    · exact same
    · exact absurd earlier (asymm later)

end SampleTypes
