import Mathlib.Data.List.Forall2

/-!
# Computations in stages

A computation that can fail is made of stages: one goes on where the one before it succeeded, and
the first failure is that of the whole.

## Main results

* `bind_eq_ok_iff` — two stages, one after the other
* `map_eq_ok_iff`, `mapError_eq_ok_iff` — a stage whose result, or failure, is changed
* `mapM_eq_ok_iff`, `exists_of_mapM_error` — a stage for each element of a list
* `mapM_eq_map` — a stage for each element whose result is changed
-/

namespace SampleTypes

variable {ε δ α β : Type}

theorem bind_eq_ok_iff {x : Except ε α} {f : α → Except ε β} {b : β} :
    x >>= f = .ok b ↔ ∃ a, x = .ok a ∧ f a = .ok b := by
  cases x with
  | error e => simp [bind, Except.bind]
  | ok a => simp [bind, Except.bind]

theorem map_eq_ok_iff {f : α → β} {x : Except ε α} {b : β} :
    x.map f = .ok b ↔ ∃ a, x = .ok a ∧ f a = b := by
  cases x with
  | error e => simp [Except.map]
  | ok a => simp [Except.map]

@[simp] theorem mapError_ok (f : ε → δ) (a : α) : (Except.ok a).mapError f = .ok a := rfl

@[simp] theorem mapError_error (f : ε → δ) (e : ε) :
    (Except.error e : Except ε α).mapError f = .error (f e) := rfl

theorem map_eq_error_iff {f : α → β} {x : Except ε α} {e : ε} :
    x.map f = .error e ↔ x = .error e := by
  cases x with
  | error e' => simp [Except.map]
  | ok a => simp [Except.map]

theorem mapError_eq_ok_iff {f : ε → δ} {x : Except ε α} {a : α} :
    x.mapError f = .ok a ↔ x = .ok a := by
  cases x with
  | error e => simp
  | ok a => simp

theorem mapM_eq_ok_iff {f : α → Except ε β} {as : List α} {bs : List β} :
    as.mapM f = .ok bs ↔ List.Forall₂ (fun a b => f a = .ok b) as bs := by
  induction as generalizing bs with
  | nil =>
    rw [List.mapM_nil, List.forall₂_nil_left_iff]
    simp only [pure, Except.pure, Except.ok.injEq]
    exact eq_comm
  | cons a as ih =>
    rw [List.mapM_cons, bind_eq_ok_iff, List.forall₂_cons_left_iff]
    simp only [bind_eq_ok_iff, ih, pure, Except.pure, Except.ok.injEq]
    constructor
    · rintro ⟨b, hb, others, hothers, rfl⟩
      exact ⟨b, others, hb, hothers, rfl⟩
    · rintro ⟨b, others, hb, hothers, rfl⟩
      exact ⟨b, hb, others, hothers, rfl⟩

/-- A stage for each element that is another one with its result changed. -/
theorem mapM_eq_map {γ : Type} {f : α → Except ε γ} {g : α → Except ε β} {h : β → γ}
    {as : List α} (same : ∀ a ∈ as, f a = (g a).map h) :
    as.mapM f = (as.mapM g).map (List.map h) := by
  induction as with
  | nil => rfl
  | cons a rest ih =>
    obtain ⟨first, others⟩ := List.forall_mem_cons.1 same
    rw [List.mapM_cons, List.mapM_cons, first, ih others]
    cases g a with
    | error e => rfl
    | ok b => cases rest.mapM g <;> rfl

/-- Where the stages of a list fail, that of one element fails and those before it do not. -/
theorem exists_of_mapM_error {f : α → Except ε β} {as : List α} {e : ε}
    (h : as.mapM f = .error e) :
    ∃ (i : Nat) (a : α), as[i]? = some a ∧ f a = .error e ∧
      ∀ (j : Nat) (a' : α), j < i → as[j]? = some a' → ∃ b, f a' = .ok b := by
  induction as with
  | nil => cases h
  | cons a as ih =>
    rw [List.mapM_cons] at h
    cases first : f a with
    | error e' =>
      rw [first] at h
      cases h
      exact ⟨0, a, rfl, first, fun j _ hj => absurd hj (Nat.not_lt_zero j)⟩
    | ok b =>
      cases others : as.mapM f with
      | ok bs => rw [first, others] at h; cases h
      | error e' =>
        rw [first, others] at h
        cases h
        obtain ⟨i, a', hi, failed, before⟩ := ih others
        refine ⟨i + 1, a', hi, failed, fun j a'' hj ha => ?_⟩
        cases j with
        | zero =>
          cases ha
          exact ⟨b, first⟩
        | succ j => exact before j a'' (Nat.lt_of_succ_lt_succ hj) ha

end SampleTypes
