import SampleTypes.Proofs.Json.Parts
import SampleTypes.Proofs.Json.Reader
import SampleTypes.Proofs.Json.Reordering
import SampleTypes.Proofs.Number.Decimal

/-!
# Whole numbers in documents

Whole numbers are read if they are short enough, so a document holds no other ones: what the readers
return, with as much fuel as they are given, has only such numbers in it at any depth.

## Main definitions

* `Json.Legible` — all whole numbers within a value are short enough to be read

## Main results

* `Json.readLegible` — the readers of values, items and members
* `Json.legible_of_read` — what documents hold is legible
* `Json.Reordered.legible` — moving members makes no number longer
-/

namespace SampleTypes.Json

/-- All whole numbers within a value are short enough to be read. -/
def Legible (j : Json) : Prop :=
  ∀ n, Within (.int n) j → (Text.ofNat n.natAbs).length ≤ maxDigits

/-- A value without parts is legible if it is no whole number. -/
theorem legible_leaf {j : Json} (noArray : ∀ items, j ≠ .array items)
    (noObject : ∀ members, j ≠ .object members) (noInt : ∀ n, j ≠ .int n) : j.Legible :=
  fun n within => absurd ((within_iff_eq noArray noObject).1 within).symm (noInt n)

theorem legible_array {items : List Json} (h : ∀ j ∈ items, Legible j) :
    Legible (.array items) := by
  intro n within
  obtain ⟨j, hj, within⟩ := (within_array_iff.1 within).resolve_left (by simp)
  exact h j hj n within

theorem legible_object {members : List (Text × Json)} (h : ∀ m ∈ members, Legible m.2) :
    Legible (.object members) := by
  intro n within
  obtain ⟨m, hm, within⟩ := (within_object_iff.1 within).resolve_left (by simp)
  exact h m hm n within

theorem Legible.item {items : List Json} (h : Legible (.array items)) {j : Json} (hj : j ∈ items) :
    j.Legible :=
  fun n within => h n (.item hj within)

theorem Legible.member {members : List (Text × Json)} (h : Legible (.object members))
    {m : Text × Json} (hm : m ∈ members) : m.2.Legible :=
  fun n within => h n (.member hm within)

/-- A value is legible with its members in any order. -/
theorem Reordered.legible {j k : Json} (reordered : Reordered j k) (h : j.Legible) :
    k.Legible := by
  induction reordered with
  | refl _ => exact h
  | trans _ _ ihij ihjk => exact ihjk (ihij h)
  | float _ => exact legible_leaf nofun nofun nofun
  | move moved => exact legible_object fun m hm => h.member (moved.mem_iff.2 hm)
  | item before after _ ih =>
    refine legible_array fun j hj => ?_
    rw [List.mem_append, List.mem_cons] at hj
    rcases hj with early | rfl | late
    · exact h.item (by simp [early])
    · exact ih (h.item (by simp))
    · exact h.item (by simp [late])
  | member before after name _ ih =>
    refine legible_object fun m hm => ?_
    rw [List.mem_append, List.mem_cons] at hm
    rcases hm with early | rfl | late
    · exact h.member (by simp [early])
    · exact ih (h.member (m := (name, _)) (by simp))
    · exact h.member (by simp [late])

/-! ## Words and numbers -/

/-- Digits that are not too many write a number that is not too long. -/
theorem legible_wholeNumber {negative : Bool} {digits : Text} {n : Int}
    (hdigits : ∀ d ∈ digits, d.isDigit = true) (h : wholeNumber negative digits = .ok n) :
    Legible (.int n) := by
  rw [wholeNumber] at h
  split_ifs at h with short
  cases h
  intro m within
  cases (within_iff_eq (by simp) (by simp)).1 within
  have size : (Binary64.signed negative (Text.toNat digits)).natAbs = Text.toNat digits := by
    cases negative <;> simp [Binary64.signed]
  rw [size, Text.length_ofNat_le_iff (by decide)]
  exact (Text.toNat_lt hdigits).trans_le (Nat.pow_le_pow_right (by decide) short)

theorem legible_word : ∀ w ∈ words, Legible w.2 := by
  have leaves : ∀ w ∈ words, (∀ items, w.2 ≠ .array items) ∧ (∀ members, w.2 ≠ .object members) ∧
      ∀ n, w.2 ≠ .int n := by
    simp [words]
  intro w hw
  obtain ⟨noArray, noObject, noInt⟩ := leaves w hw
  exact legible_leaf noArray noObject noInt

theorem legible_scalar {t rest : Text} {j : Json} (h : scalar t = .ok (j, rest)) : j.Legible := by
  rw [scalar] at h
  split at h
  next found word =>
    obtain ⟨⟨w, k⟩, hw, here⟩ := List.exists_of_findSome?_eq_some word
    obtain ⟨left, -, same⟩ := Option.map_eq_some_iff.1 here
    cases h
    cases same
    exact legible_word _ hw
  split at h
  next n left numeral =>
    obtain ⟨k, value, same⟩ := map_eq_ok_iff.1 h
    cases same
    rw [Numeral.value] at value
    split_ifs at value
    · obtain ⟨m, hm, rfl⟩ := map_eq_ok_iff.1 value
      exact legible_wholeNumber (numeral_taken numeral).2.1 hm
    · cases value
      exact legible_leaf (by simp) (by simp) (by simp)
  · cases h

/-! ## Arrays and objects -/

/-- The readers with so much fuel return legible values. -/
structure ReadLegible (fuel : Nat) : Prop where
  value {t rest : Text} {j : Json} (read : value fuel t = .ok (j, rest)) : Legible j
  items {before : List Json} (hbefore : ∀ k ∈ before, Legible k) {t rest : Text} {j : Json}
    (read : items fuel before t = .ok (j, rest)) : Legible j
  members {before : List (Text × Json)} (hbefore : ∀ m ∈ before, Legible m.2) {t rest : Text}
    {j : Json} (read : members fuel before t = .ok (j, rest)) : Legible j

theorem value_legible_succ {fuel : Nat} (h : ReadLegible fuel) {t rest : Text} {j : Json}
    (read : value (fuel + 1) t = .ok (j, rest)) : j.Legible := by
  rw [value.eq_def] at read
  simp only at read
  split at read
  · cases read
  next c inner =>
    split_ifs at read
    · obtain ⟨_, -, same⟩ := map_eq_ok_iff.1 read
      cases same
      exact legible_leaf (by simp) (by simp) (by simp)
    · split at read
      · exact h.items (by simp) read
      · split_ifs at read
        · cases read
          exact legible_array (by simp)
        · exact h.items (by simp) read
    · split at read
      · exact h.members (by simp) read
      · split_ifs at read
        · cases read
          exact legible_object (by simp)
        · exact h.members (by simp) read
    · exact legible_scalar read

theorem items_legible_succ {fuel : Nat} (h : ReadLegible fuel) {before : List Json}
    (hbefore : ∀ k ∈ before, Legible k) {t rest : Text} {j : Json}
    (read : items (fuel + 1) before t = .ok (j, rest)) : j.Legible := by
  rw [items.eq_def] at read
  obtain ⟨⟨item, left⟩, here, read⟩ := bind_eq_ok_iff.1 read
  -- The items that were read before wait in reverse, and are legible all along.
  have all : ∀ k ∈ item :: before, Legible k := List.forall_mem_cons.2 ⟨h.value here, hbefore⟩
  simp only at read
  split at read
  · cases read
  · split_ifs at read
    · cases read
      exact legible_array fun k hk => all k (List.mem_reverse.1 hk)
    · exact h.items all read

theorem members_legible_succ {fuel : Nat} (h : ReadLegible fuel) {before : List (Text × Json)}
    (hbefore : ∀ m ∈ before, Legible m.2) {t rest : Text} {j : Json}
    (read : members (fuel + 1) before t = .ok (j, rest)) : j.Legible := by
  rw [members.eq_def] at read
  obtain ⟨-, -, read⟩ := bind_eq_ok_iff.1 read
  obtain ⟨⟨name, _⟩, -, read⟩ := bind_eq_ok_iff.1 read
  obtain ⟨_, -, read⟩ := bind_eq_ok_iff.1 read
  obtain ⟨⟨item, _⟩, here, read⟩ := bind_eq_ok_iff.1 read
  have all : ∀ m ∈ (name, item) :: before, Legible m.2 :=
    List.forall_mem_cons.2 ⟨h.value here, hbefore⟩
  simp only at read
  split at read
  · cases read
  · split_ifs at read
    · cases read
      -- A member that repeats a name replaces one, so what is left was read as well.
      refine legible_object fun m hm => all m ?_
      rw [Entries.ofPairs_eq_merged] at hm
      exact List.mem_reverse.1 (Entries.mem_of_mem_merged hm)
    · exact h.members all read

theorem readLegible (fuel : Nat) : ReadLegible fuel := by
  induction fuel with
  | zero =>
    refine ⟨fun read => ?_, fun _ _ _ _ read => ?_, fun _ _ _ _ read => ?_⟩
    all_goals cases read
  | succ fuel ih =>
    exact ⟨value_legible_succ ih, items_legible_succ ih, members_legible_succ ih⟩

/-- What a document holds is legible. -/
theorem legible_of_read {t : Text} {j : Json} (h : read t = .ok j) : j.Legible := by
  obtain ⟨⟨k, rest⟩, value, ends⟩ := bind_eq_ok_iff.1 (whole_of_read h)
  simp only at ends
  split at ends
  · cases ends
    exact (readLegible _).value value
  · cases ends

end SampleTypes.Json
