import Mathlib.Data.List.Forall2
import Mathlib.Data.List.Induction
import Mathlib.Data.List.Nodup
import SampleTypes.Entries
import SampleTypes.Proofs.Text.Order

/-!
# Merging and sorting named entries

Building entries from pairs merges the pairs of a name: it stands at its first place with its last
value. Sorting entries by name has one result, whatever their order was, as long as no name
repeats.

## Main definitions

* `Entries.last?` — the last value under a name
* `Entries.merged` — the entries with repeated names merged
* `Entries.Related` — entries with the same names in the same places, and related values

## Main results

* `forall₂_one_by_one` — related lists become each other element by element
* `Entries.ofPairs_eq_merged` — setting pairs in turn merges them
* `Entries.nodup_names_merged`, `Entries.merged_eq_self` — merging leaves no repeated name, and
  nothing to merge
* `Entries.length_merged_eq_iff` — it leaves every entry exactly if no name repeats
* `Entries.names_merged`, `Entries.find?_merged` — it leaves the different names in the order in
  which they appear, with their last values
* `Entries.merged_overridden` — it forgets every other value
* `Entries.Related.merged` — merging keeps entries related
* `Entries.sort_eq_of_perm` — sorting forgets the order of entries
* `Entries.names_sort_increasing`, `Entries.sort_eq_self` — after sorting the names increase, and
  such entries stay as they are
-/

namespace SampleTypes

/-- Related lists become each other by replacing one element after another. -/
theorem forall₂_one_by_one {α : Type} {R : α → α → Prop} {T : List α → List α → Prop}
    (refl : ∀ l, T l l) (trans : ∀ {k l m}, T k l → T l m → T k m)
    (step : ∀ before after {a b}, R a b → T (before ++ a :: after) (before ++ b :: after))
    {as bs : List α} (h : List.Forall₂ R as bs) : T as bs := by
  -- Elements that have been replaced stand before those that have not.
  have within (before : List α) : T (before ++ as) (before ++ bs) := by
    induction h generalizing before with
    | nil => exact refl _
    | @cons a b as bs hab _ ih =>
      have others := ih (before ++ [b])
      simp only [List.append_assoc, List.singleton_append] at others
      exact trans (step before as hab) others
  exact within []

/-- Something that is related to each element makes a list of what is related to them. -/
theorem exists_forall₂ {α β : Type} {R : α → β → Prop} {as : List α} (h : ∀ a ∈ as, ∃ b, R a b) :
    ∃ bs, List.Forall₂ R as bs := by
  induction as with
  | nil => exact ⟨[], .nil⟩
  | cons a rest ih =>
    obtain ⟨b, hb⟩ := h a (List.mem_cons_self ..)
    obtain ⟨bs, hbs⟩ := ih fun a' ha' => h a' (List.mem_cons_of_mem _ ha')
    exact ⟨b :: bs, .cons hb hbs⟩

theorem exists_of_mem_right {α β : Type} {R : α → β → Prop} {as : List α} {bs : List β}
    (h : List.Forall₂ R as bs) {b : β} (hb : b ∈ bs) : ∃ a ∈ as, R a b := by
  induction h with
  | nil => cases hb
  | cons first _ ih =>
    rcases List.mem_cons.1 hb with rfl | hb
    · exact ⟨_, List.mem_cons_self .., first⟩
    · obtain ⟨a, ha, hab⟩ := ih hb
      exact ⟨a, List.mem_cons_of_mem _ ha, hab⟩

theorem exists_of_rel_some {α β : Type} {R : α → β → Prop} {a : α} {o : Option β}
    (h : Option.Rel R (some a) o) : ∃ b, o = some b ∧ R a b := by
  cases h with
  | some h => exact ⟨_, rfl, h⟩

/-- It makes no difference whether a list is freed of repetitions before or after a filter. -/
theorem filter_eraseDups {α : Type} [BEq α] [LawfulBEq α] (p : α → Bool) :
    ∀ l : List α, l.eraseDups.filter p = (l.filter p).eraseDups
  | [] => rfl
  | a :: rest => by
    -- Shorter, but no part of the list: what is left of it without its first element.
    have shorter := List.length_filter_le (fun b => !b == a) rest
    have ih := filter_eraseDups p (rest.filter fun b => !b == a)
    rw [List.eraseDups_cons]
    by_cases kept : p a = true
    · rw [List.filter_cons_of_pos kept, List.filter_cons_of_pos kept, ih, List.eraseDups_cons,
        List.filter_filter, List.filter_filter]
      simp only [Bool.and_comm]
    · have others : (rest.filter fun b => p b && !b == a) = rest.filter p :=
        List.filter_congr fun b _ => by
          by_cases same : b = a
          · simp [same, kept]
          · simp [same]
      rw [List.filter_cons_of_neg kept, List.filter_cons_of_neg kept, ih, List.filter_filter,
        others]
termination_by l => l.length
decreasing_by exact Nat.lt_succ_of_le shorter

namespace Entries

variable {α β : Type}

/-- The last value under a name. -/
def last? (name : Text) (entries : Entries α) : Option α := find? name entries.reverse

/-- The entries with repeated names merged: each name at its first place, with its last value. -/
def merged : Entries α → Entries α
  | [] => []
  | (name, value) :: rest =>
    (name, (last? name rest).getD value) :: (merged rest).filter fun e => e.1 != name

/-! ## Names and values -/

@[simp] theorem names_nil : names ([] : Entries α) = [] := rfl

@[simp] theorem names_cons (e : Text × α) (entries : Entries α) :
    names (e :: entries) = e.1 :: names entries := rfl

@[simp] theorem names_append (as bs : Entries α) : names (as ++ bs) = names as ++ names bs :=
  List.map_append

theorem find?_append (name : Text) (as bs : Entries α) :
    find? name (as ++ bs) = (find? name as).or (find? name bs) := by
  induction as with
  | nil => rfl
  | cons e rest ih => by_cases h : e.1 = name <;> simp [find?, h, ih]

theorem last?_concat (name : Text) (entries : Entries α) (e : Text × α) :
    last? name (entries ++ [e]) = if e.1 = name then some e.2 else last? name entries := by
  simp [last?, find?]

theorem last?_cons (name : Text) (e : Text × α) (entries : Entries α) :
    last? name (e :: entries) =
      (last? name entries).or (if e.1 = name then some e.2 else none) := by
  simp [last?, find?_append, find?]

/-! ## Setting pairs in turn -/

theorem set_filter_self (name : Text) (value : α) (entries : Entries α) :
    (entries.set name value).filter (fun e => e.1 != name) =
      entries.filter fun e => e.1 != name := by
  induction entries with
  | nil => simp [set]
  | cons e rest ih => by_cases h : e.1 = name <;> simp [set, h, ih]

theorem set_filter_of_ne {name other : Text} (h : name ≠ other) (value : α) (entries : Entries α) :
    (entries.set name value).filter (fun e => e.1 != other) =
      Entries.set name value (entries.filter fun e => e.1 != other) := by
  induction entries with
  | nil => simp [set, h]
  | cons e rest ih =>
    by_cases hname : e.1 = name
    · simp [set, hname, h]
    · by_cases hother : e.1 = other
      · simp [set, hother, Ne.symm h, ih]
      · simp [set, hname, hother, ih]

@[simp] theorem ofPairs_nil : ofPairs ([] : Entries α) = [] := rfl

theorem ofPairs_concat (pairs : Entries α) (p : Text × α) :
    ofPairs (pairs ++ [p]) = (ofPairs pairs).set p.1 p.2 := by
  simp [ofPairs]

/-- The first pair gives its name the first place; whether it gives it the value is up to the pairs
after it. -/
theorem ofPairs_cons (name : Text) (value : α) (pairs : Entries α) :
    ofPairs ((name, value) :: pairs) =
      (name, (last? name pairs).getD value) :: (ofPairs pairs).filter fun e => e.1 != name := by
  -- From the end of the pairs, because that is where the next pair is set.
  induction pairs using List.reverseRecOn with
  | nil => rfl
  | append_singleton pairs p ih =>
    rw [← List.cons_append, ofPairs_concat, ih, ofPairs_concat, last?_concat]
    by_cases h : p.1 = name
    · simp [set, h, set_filter_self]
    · simp [set, h, Ne.symm h, set_filter_of_ne h]

/-- Setting pairs in turn merges them. -/
theorem ofPairs_eq_merged (pairs : Entries α) : ofPairs pairs = merged pairs := by
  induction pairs with
  | nil => rfl
  | cons p rest ih => rw [ofPairs_cons, ih, merged]

/-! ## Merging -/

theorem names_map (f : α → β) (entries : Entries α) :
    names (entries.map fun e => (e.1, f e.2)) = names entries := by
  simp [names]

theorem find?_map (f : α → β) (name : Text) (entries : Entries α) :
    find? name (entries.map fun e => (e.1, f e.2)) = (find? name entries).map f := by
  induction entries with
  | nil => rfl
  | cons e rest ih => by_cases h : e.1 = name <;> simp [find?, h, ih]

theorem last?_map (f : α → β) (name : Text) (entries : Entries α) :
    last? name (entries.map fun e => (e.1, f e.2)) = (last? name entries).map f := by
  rw [last?, ← List.map_reverse, find?_map, last?]

theorem merged_map (f : α → β) (entries : Entries α) :
    merged (entries.map fun e => (e.1, f e.2)) = (merged entries).map fun e => (e.1, f e.2) := by
  induction entries with
  | nil => rfl
  | cons e rest ih =>
    simp only [List.map_cons, merged, last?_map, ih, List.filter_map]
    cases last? e.1 rest <;> rfl

theorem names_filter (name : Text) (entries : Entries α) :
    names (entries.filter fun e => e.1 != name) = (names entries).filter (· != name) := by
  simp only [names, List.filter_map]
  rfl

/-- No name repeats after merging. -/
theorem nodup_names_merged (entries : Entries α) : (merged entries).names.Nodup := by
  induction entries with
  | nil => exact List.nodup_nil
  | cons e rest ih =>
    rw [merged, names_cons, names_filter]
    exact List.nodup_cons.2 ⟨by simp, ih.filter _⟩

theorem mem_of_find? {name : Text} {value : α} {entries : Entries α}
    (h : find? name entries = some value) : (name, value) ∈ entries := by
  induction entries with
  | nil => cases h
  | cons e rest ih =>
    by_cases hname : e.1 = name
    · obtain rfl : e.2 = value := by simpa [find?, hname] using h
      exact hname ▸ List.mem_cons_self ..
    · rw [find?, if_neg hname] at h
      exact List.mem_cons_of_mem _ (ih h)

/-- Every name has a value. -/
theorem exists_find?_of_mem {name : Text} {entries : Entries α} (h : name ∈ entries.names) :
    ∃ value, find? name entries = some value := by
  induction entries with
  | nil => cases h
  | cons e rest ih =>
    by_cases hname : e.1 = name
    · exact ⟨e.2, by rw [find?, if_pos hname]⟩
    · rw [find?, if_neg hname]
      exact ih ((List.mem_cons.1 h).resolve_left (Ne.symm hname))

/-- The names after merging are the different names in the order of their first places. -/
theorem names_merged (entries : Entries α) : (merged entries).names = entries.names.eraseDups := by
  induction entries with
  | nil => rfl
  | cons e rest ih =>
    rw [merged, names_cons, names_filter, ih, names_cons, List.eraseDups_cons, ← filter_eraseDups]
    rfl

theorem find?_filter_of_ne {name other : Text} (h : name ≠ other) (entries : Entries α) :
    find? name (entries.filter fun e => e.1 != other) = find? name entries := by
  induction entries with
  | nil => rfl
  | cons e rest ih =>
    by_cases here : e.1 = other
    · have elsewhere : e.1 ≠ name := fun same => h (same.symm.trans here)
      rw [List.filter_cons_of_neg (by simp [here]), ih, find?, if_neg elsewhere]
    · rw [List.filter_cons_of_pos (by simp [here]), find?, find?, ih]

/-- Under a name, merging leaves the last value. -/
theorem find?_merged (name : Text) (entries : Entries α) :
    find? name (merged entries) = last? name entries := by
  induction entries with
  | nil => rfl
  | cons e rest ih =>
    rw [merged, find?, last?_cons]
    by_cases here : e.1 = name
    · rw [if_pos here, if_pos here, here]
      cases last? name rest <;> rfl
    · rw [if_neg here, if_neg here, find?_filter_of_ne (Ne.symm here), ih, Option.or_none]

theorem find?_eq_some_iff {entries : Entries α} (nodup : entries.names.Nodup) (name : Text)
    (value : α) : find? name entries = some value ↔ (name, value) ∈ entries := by
  refine ⟨mem_of_find?, fun h => ?_⟩
  induction entries with
  | nil => cases h
  | cons e rest ih =>
    obtain ⟨fresh, nodup⟩ := List.nodup_cons.1 nodup
    rcases List.mem_cons.1 h with rfl | h
    · simp [find?]
    · have other : e.1 ≠ name := fun same => fresh (same ▸ List.mem_map_of_mem h)
      rw [find?, if_neg other, ih nodup h]

/-- Where entries stand makes no difference for looking them up, if no name repeats. -/
theorem find?_eq_of_perm {as bs : Entries α} (h : as.Perm bs) (nodup : as.names.Nodup)
    (name : Text) : find? name as = find? name bs := by
  have nodupB : bs.names.Nodup := (h.map Prod.fst).nodup_iff.1 nodup
  ext value
  rw [find?_eq_some_iff nodup, find?_eq_some_iff nodupB, h.mem_iff]

/-- Merging adds no entry. -/
theorem mem_of_mem_merged {e : Text × α} {entries : Entries α} (h : e ∈ merged entries) :
    e ∈ entries := by
  induction entries with
  | nil => exact h
  | cons e' rest ih =>
    rcases List.mem_cons.1 h with rfl | h
    · cases hlast : last? e'.1 rest with
      | none => exact List.mem_cons_self ..
      | some value =>
        exact List.mem_cons_of_mem _ (List.mem_reverse.1 (mem_of_find? hlast))
    · exact List.mem_cons_of_mem _ (ih (List.mem_filter.1 h).1)

theorem last?_eq_none {name : Text} {entries : Entries α} (h : name ∉ entries.names) :
    last? name entries = none := by
  induction entries with
  | nil => rfl
  | cons e rest ih =>
    simp only [names_cons, List.mem_cons, not_or] at h
    rw [last?_cons, ih h.2, if_neg (Ne.symm h.1), Option.none_or]

/-- Merging changes nothing if no name repeats. -/
theorem merged_eq_self {entries : Entries α} (h : entries.names.Nodup) :
    merged entries = entries := by
  induction entries with
  | nil => rfl
  | cons e rest ih =>
    obtain ⟨fresh, nodup⟩ := List.nodup_cons.1 h
    rw [merged, ih nodup, last?_eq_none fresh, Option.getD_none]
    congr 1
    -- No later entry has the name of the first, so the filter keeps them all.
    rw [List.filter_eq_self]
    intro other mem
    have : other.1 ≠ e.1 := fun same => fresh (same ▸ List.mem_map_of_mem mem)
    simpa using this

theorem names_merged_sublist (entries : Entries α) :
    (names (merged entries)).Sublist (names entries) := by
  induction entries with
  | nil => exact List.Sublist.refl _
  | cons e rest ih =>
    rw [merged, names_cons, names_filter, names_cons]
    exact (List.filter_sublist.trans ih).cons_cons _

theorem last?_append (name : Text) (as bs : Entries α) :
    last? name (as ++ bs) = (last? name bs).or (last? name as) := by
  rw [last?, List.reverse_append, find?_append, last?, last?]

/-- What stands under a name before its last place makes no difference. -/
theorem merged_overridden {name : Text} {after : Entries α} (h : name ∈ after.names)
    (before : Entries α) (x y : α) :
    merged (before ++ (name, x) :: after) = merged (before ++ (name, y) :: after) := by
  obtain ⟨last, found⟩ : ∃ last, last? name after = some last :=
    exists_find?_of_mem (by simpa [names] using h)
  have same (before : Entries α) (other : Text) :
      last? other (before ++ (name, x) :: after) = last? other (before ++ (name, y) :: after) := by
    rw [last?_append, last?_append, last?_cons, last?_cons]
    by_cases here : name = other
    · simp only [← here, found, Option.some_or]
    · rw [if_neg here, if_neg here]
  induction before with
  | nil => simp only [List.nil_append, merged, found, Option.getD_some]
  | cons e before ih => rw [List.cons_append, List.cons_append, merged, merged, same, ih]

/-- Merging leaves fewer entries exactly if some name repeats. -/
theorem length_merged_eq_iff (entries : Entries α) :
    (merged entries).length = entries.length ↔ entries.names.Nodup := by
  refine ⟨fun same => ?_, fun nodup => by rw [merged_eq_self nodup]⟩
  have names_eq : names (merged entries) = names entries :=
    (names_merged_sublist entries).eq_of_length (by simpa [names] using same)
  exact names_eq ▸ nodup_names_merged entries

/-! ## Related entries -/

/-- The same names in the same places, and related values under them. -/
abbrev Related (R : α → β → Prop) (as : Entries α) (bs : Entries β) : Prop :=
  List.Forall₂ (fun a b => a.1 = b.1 ∧ R a.2 b.2) as bs

section

variable {R : α → β → Prop} {as : Entries α} {bs : Entries β}

theorem Related.names_eq (h : Related R as bs) : names as = names bs := by
  induction h with
  | nil => rfl
  | cons first _ ih => rw [names_cons, names_cons, first.1, ih]

theorem Related.find? (h : Related R as bs) (name : Text) :
    Option.Rel R (find? name as) (find? name bs) := by
  induction h with
  | nil => exact .none
  | @cons a b _ _ first _ ih =>
    by_cases here : a.1 = name
    · have here' : b.1 = name := first.1 ▸ here
      simp only [Entries.find?, here, here', if_true]
      exact .some first.2
    · have here' : b.1 ≠ name := first.1 ▸ here
      simp only [Entries.find?, here, here', if_false]
      exact ih

theorem Related.last? (h : Related R as bs) (name : Text) :
    Option.Rel R (last? name as) (last? name bs) :=
  Related.find? (List.forall₂_reverse_iff.2 h) name

/-- Merging keeps entries related. -/
theorem Related.merged (h : Related R as bs) : Related R (merged as) (merged bs) := by
  induction h with
  | nil => exact .nil
  | @cons a b as bs first rest ih =>
    obtain ⟨name, x⟩ := a
    obtain ⟨name', y⟩ := b
    obtain ⟨rfl, hxy⟩ : name = name' ∧ R x y := first
    have last := Related.last? rest name
    refine .cons ⟨rfl, ?_⟩ (List.rel_filter (fun _ _ h => by simp only [h.1]) ih)
    -- The value is that of a later entry of the name, if there is one on either side.
    cases hx : Entries.last? name as <;> cases hy : Entries.last? name bs <;>
      rw [hx, hy] at last <;> cases last
    · exact hxy
    · assumption

end

/-! ## Sorting -/

theorem sort_perm (entries : Entries α) : (sort entries).Perm entries :=
  List.mergeSort_perm _ _

theorem sort_map (f : α → β) (entries : Entries α) :
    sort (entries.map fun e => (e.1, f e.2)) = (sort entries).map fun e => (e.1, f e.2) := by
  rw [sort, sort, List.map_mergeSort]
  intros
  rfl

/-- Sorted entries are in the order of their names. -/
theorem pairwise_sort (entries : Entries α) :
    (sort entries).Pairwise fun a b => a.1.le b.1 = true :=
  List.pairwise_mergeSort (fun a b c => Text.le_trans a.1 b.1 c.1)
    (fun a b => Text.le_total a.1 b.1) entries

/-- Sorting forgets the order of entries with different names. -/
theorem sort_eq_of_perm {as bs : Entries α} (h : as.Perm bs) (nodup : as.names.Nodup) :
    sort as = sort bs := by
  refine List.Perm.eq_of_pairwise ?_ (pairwise_sort as) (pairwise_sort bs)
    ((sort_perm as).trans (h.trans (sort_perm bs).symm))
  -- Of two entries that are each before the other the names agree, and so they are one entry.
  intro a b ha hb hab hba
  have memA : a ∈ as := (sort_perm as).mem_iff.1 ha
  have memB : b ∈ as := h.mem_iff.2 ((sort_perm bs).mem_iff.1 hb)
  exact List.inj_on_of_nodup_map nodup memA memB (Text.le_antisymm hab hba)

theorem nodup_names_sort {entries : Entries α} (nodup : entries.names.Nodup) :
    (sort entries).names.Nodup :=
  ((sort_perm entries).map Prod.fst).nodup_iff.2 nodup

/-- The names of sorted entries increase, if none repeats. -/
theorem names_sort_increasing {entries : Entries α} (nodup : entries.names.Nodup) :
    (sort entries).names.Pairwise (· < ·) := by
  have ordered : (sort entries).names.Pairwise fun s t => s.le t = true :=
    List.pairwise_map.2 (pairwise_sort entries)
  refine (ordered.and (nodup_names_sort nodup)).imp ?_
  rintro s t ⟨le, ne⟩
  exact (Text.le_iff_lt_or_eq.1 le).resolve_right ne

theorem nodup_of_increasing {entries : Entries α} (h : entries.names.Pairwise (· < ·)) :
    entries.names.Nodup :=
  h.imp fun lt => by
    rintro rfl
    exact List.lt_irrefl _ lt

/-- Entries whose names increase stay as they are. -/
theorem sort_eq_self {entries : Entries α} (h : entries.names.Pairwise (· < ·)) :
    sort entries = entries :=
  List.mergeSort_of_pairwise
    ((List.pairwise_map.1 h).imp fun lt => Text.le_iff_lt_or_eq.2 (.inl lt))

end Entries

end SampleTypes
