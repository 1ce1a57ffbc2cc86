import Mathlib.Data.List.Perm.Basic
import SampleTypes.Proofs.Descriptor.Shape
import SampleTypes.Proofs.Inference.Types
import SampleTypes.Proofs.Json.Reordering
import SampleTypes.Proofs.Stages

/-!
# Writing and reading types

What a type is written as is read back, and nothing else is read. Writing merges the names that an
object repeats, so a type comes back as it is exactly if its objects repeat no name, as those of
an inferred type never do. Reading changes nothing: what is read is written again as it stood,
member by member, and every other JSON value is refused.

## Main results

* `Descriptor.toJson_of_ofSample` — what is read is written again
* `Descriptor.exists_toJson_of_reordered` — moving members comes to moving fields
* `Descriptor.ofSample_toJson_iff_distinct` — what comes back of a type
* `Descriptor.ofSample_eq_ok_iff_written` — which JSON values are read
-/

namespace SampleTypes.Descriptor

/-- The JSON form of a type repeats no name. -/
theorem distinct_toJson (d : Descriptor) : d.toJson.Distinct := (kept_toJson d).distinct

/-! ## What is read -/

theorem text_of_ofText? {t : Text} {tag : Tag} (h : Tag.ofText? t = some tag) : tag.text = t := by
  simpa using List.find?_some h

/-- A list that is read holds one item. -/
theorem ofSample_list_eq_ok {items : List Sample} {d : Descriptor}
    (h : ofSample (Sample.list items) = .ok d) :
    ∃ s element, items = [s] ∧ ofSample s = .ok element ∧ d = .array element := by
  match items, h with
  | [s], h =>
    rw [Sample.list, ofSample] at h
    obtain ⟨element, read, rfl⟩ := map_eq_ok_iff.1 h
    exact ⟨s, element, rfl, read, rfl⟩

/-- Where the values of members are written again as they stood, so are the members. -/
theorem map_toJson_of_ofEntrySamples {members : List (Text × Json)}
    (h : ∀ m ∈ members, ∀ d, ofSample (Sample.ofJson m.2) = .ok d → d.toJson = m.2)
    {fields : List (Text × Descriptor)}
    (read : ofEntrySamples (Sample.ofMembers members) = .ok fields) :
    fields.map (fun f => (f.1, f.2.toJson)) = members := by
  induction members generalizing fields with
  | nil =>
    cases read
    rfl
  | cons m rest ih =>
    rw [Sample.ofMembers, ofEntrySamples] at read
    simp only [Sample.ofText, Sample.content?] at read
    cases first : ofSample (Sample.ofJson m.2) with
    | error e => rw [first] at read; cases read
    | ok d =>
      cases others : ofEntrySamples (Sample.ofMembers rest) with
      | error e => rw [first, others] at read; cases read
      | ok tail =>
        rw [first, others] at read
        cases read
        have written := h m (List.mem_cons_self ..) d first
        rw [List.map_cons, written, ih (fun n hn => h n (List.mem_cons_of_mem _ hn)) others]

/-- What is read is written again as it stood. -/
theorem toJson_of_ofSample {p : Json} (h : p.Distinct) {d : Descriptor}
    (read : ofSample (Sample.ofJson p) = .ok d) : d.toJson = p := by
  induction p generalizing d with
  | null => cases read
  | bool b => cases read
  | int n => cases read
  | float x => cases read
  | text t =>
    rw [Sample.ofJson, Sample.ofText, ofSample] at read
    cases found : Tag.ofText? t with
    | none => rw [found] at read; cases read
    | some tag =>
      rw [found] at read
      cases read
      rw [toJson_primitive, text_of_ofText? found]
  | array items ih =>
    rw [Sample.ofJson, Sample.ofItems_eq_map] at read
    obtain ⟨s, element, whole, readElement, rfl⟩ := ofSample_list_eq_ok read
    obtain ⟨j, rfl, rfl⟩ := List.map_eq_singleton_iff.1 whole
    have here : j ∈ [j] := List.mem_singleton_self j
    rw [toJson_array, ih j here (h.item here) readElement]
  | object members ih =>
    rw [Sample.ofJson, ofSample] at read
    obtain ⟨fields, readFields, rfl⟩ := map_eq_ok_iff.1 read
    have written := map_toJson_of_ofEntrySamples (fun m hm _ => ih m hm (h.member hm)) readFields
    have nodup : (Entries.names fields).Nodup := by
      rw [← Entries.names_map toJson fields, written]
      exact h.nodup
    rw [toJson_object_of_nodup nodup, written]

/-! ## Members moved -/

theorem toJson_ne_float (d : Descriptor) (x : Binary64) : d.toJson ≠ .float x := by
  cases d with
  | stray value => exact value.elim
  | _ => simp [toJson_primitive, toJson_array, toJson_object]

theorem exists_of_toJson_eq_array {d : Descriptor} {items : List Json}
    (h : d.toJson = .array items) :
    ∃ element : Descriptor, d = .array element ∧ items = [element.toJson] := by
  cases d with
  | array element =>
    rw [toJson_array, Json.array.injEq] at h
    exact ⟨element, rfl, h.symm⟩
  | stray value => exact value.elim
  | _ => simp [toJson_primitive, toJson_object] at h

theorem exists_of_toJson_eq_object {d : Descriptor} (distinct : Outline.Distinct d)
    {members : List (Text × Json)} (h : d.toJson = .object members) :
    ∃ fields : List (Text × Descriptor), d = .object fields ∧
      members = fields.map fun f => (f.1, toJson f.2) := by
  cases d with
  | object fields =>
    rw [toJson_object_of_nodup distinct.nodup, Json.object.injEq] at h
    exact ⟨fields, rfl, h.symm⟩
  | stray value => exact value.elim
  | _ => simp [toJson_primitive, toJson_array] at h

/-- What a type is written as, with members moved, is what the type with fields moved is written
as. -/
theorem exists_toJson_of_reordered {d : Descriptor} (distinct : Outline.Distinct d) {k : Json}
    (h : Json.Reordered d.toJson k) : ∃ e : Descriptor, Outline.Reordered d e ∧ e.toJson = k := by
  obtain ⟨j, hj⟩ : ∃ j, d.toJson = j := ⟨_, rfl⟩
  rw [hj] at h
  -- A reordered type has distinct names too, which is what the next step needs.
  induction h generalizing d with
  | refl j => exact ⟨d, .refl d, hj⟩
  | trans _ _ ihij ihjk =>
    obtain ⟨e, hde, he⟩ := ihij distinct hj
    obtain ⟨f, hef, hf⟩ := ihjk (hde.sorted_eq distinct).2 he
    exact ⟨f, .trans hde hef, hf⟩
  | float _ => exact absurd hj (d.toJson_ne_float _)
  | @move as bs moved =>
    obtain ⟨fields, rfl, written⟩ := exists_of_toJson_eq_object distinct hj
    have matched : List.Forall₂ (fun m f => m = (f.1, toJson f.2)) as fields := by
      rw [written, List.forall₂_map_left_iff]
      exact List.forall₂_same.2 fun _ _ => rfl
    obtain ⟨fields', matched', moved'⟩ := List.perm_comp_forall₂ moved.symm matched
    have reordered : Outline.Reordered (.object fields) (.object fields') := .move moved'.symm
    refine ⟨.object fields', reordered, ?_⟩
    rw [toJson_object_of_nodup (reordered.sorted_eq distinct).2.nodup]
    congr 1
    rw [← List.forall₂_eq_eq_eq, List.forall₂_map_left_iff]
    exact matched'.flip.imp fun _ _ same => same.symm
  | @item before after j k _ ih =>
    obtain ⟨element, rfl, written⟩ := exists_of_toJson_eq_array hj
    cases before with
    | cons _ before => simp at written
    | nil =>
      simp only [List.nil_append, List.cons.injEq] at written
      obtain ⟨rfl, rfl⟩ := written
      obtain ⟨e, reordered, he⟩ := ih distinct.element rfl
      exact ⟨.array e, .element reordered, by rw [toJson_array, he, List.nil_append]⟩
  | @member before after name j k _ ih =>
    obtain ⟨fields, rfl, written⟩ := exists_of_toJson_eq_object distinct hj
    obtain ⟨first, others, rfl, hfirst, hothers⟩ := List.map_eq_append_iff.1 written.symm
    obtain ⟨f, rest, rfl, hf, hrest⟩ := List.map_eq_cons_iff.1 hothers
    cases hf
    obtain ⟨e, reordered, he⟩ := ih (distinct.field (by simp)) rfl
    have whole := Outline.Reordered.field first rest f.1 reordered
    refine ⟨_, whole, ?_⟩
    rw [toJson_object_of_nodup (whole.sorted_eq distinct).2.nodup, List.map_append, List.map_cons,
      hfirst, hrest, he]

/-! ## What comes back, and what is read -/

/-- What comes back of a type is the type with the names that its objects repeat merged, each at
its first place with its last type. So it is the type itself exactly if no object repeats a name,
and every inferred type comes back as it is. -/
theorem ofSample_toJson_iff_distinct (d : Descriptor) :
    ofSample (Sample.ofJson d.toJson) = .ok (Outline.merged d) ∧
      (ofSample (Sample.ofJson d.toJson) = .ok d ↔ Outline.Distinct d) ∧
      ∀ s, infer s = .ok d → ofSample (Sample.ofJson d.toJson) = .ok d := by
  have back := ofSample_toJson d
  refine ⟨back, ⟨fun same => ?_, ofSample_toJson_of_distinct⟩, fun s inferred =>
    ofSample_toJson_of_distinct (infer_distinct inferred)⟩
  -- Merging leaves no repeated name, so what merging does not change repeats none.
  have unchanged : Outline.merged d = d := Except.ok.inj (back.symm.trans same)
  exact unchanged ▸ Outline.merged_distinct d

/-- A name that is repeated comes back at its first place with its last type. -/
example :
    let a := Text.ofString "a"
    let b := Text.ofString "b"
    ofSample (Sample.ofJson (toJson (.object
        [(a, .primitive .string), (b, .primitive .number), (a, .primitive .null)]))) =
      .ok (.object [(a, .primitive .null), (b, .primitive .number)]) := rfl

/-- A JSON value is read exactly if it is what some type is written as. What is read of it is
written as that value again, with its members in their order; any other value is refused. -/
theorem ofSample_eq_ok_iff_written {p : Json} (h : p.Distinct) :
    ((∃ d, ofSample (Sample.ofJson p) = .ok d) ↔ ∃ d : Descriptor, d.toJson = p) ∧
      (∀ d, ofSample (Sample.ofJson p) = .ok d → d.toJson = p) ∧
      ((¬ ∃ d : Descriptor, d.toJson = p) → ∃ e, ofSample (Sample.ofJson p) = .error e) := by
  have written : ∀ d, ofSample (Sample.ofJson p) = .ok d → d.toJson = p :=
    fun _ => toJson_of_ofSample h
  have accepted : (∃ d, ofSample (Sample.ofJson p) = .ok d) ↔ ∃ d : Descriptor, d.toJson = p := by
    constructor
    · rintro ⟨d, read⟩
      exact ⟨d, written d read⟩
    · rintro ⟨d, rfl⟩
      exact ⟨Outline.merged d, ofSample_toJson d⟩
  refine ⟨accepted, written, fun unwritten => ?_⟩
  cases read : ofSample (Sample.ofJson p) with
  | error e => exact ⟨e, rfl⟩
  | ok d => exact absurd ⟨d, written d read⟩ unwritten

/-- An object with a list of one word in it is read and written again, and one with a list of two
words is refused. -/
theorem ofSample_of_two_lists :
    let word := Json.text (Text.ofString "null")
    let document (items : List Json) : Json :=
      .object [(Text.ofString "b", .array items), (Text.ofString "a", word)]
    (∃ d, ofSample (Sample.ofJson (document [word])) = .ok d ∧ d.toJson = document [word]) ∧
      ∃ e, ofSample (Sample.ofJson (document [word, word])) = .error e := by
  intro word document
  have distinct (items : List Json) (h : ∀ j ∈ items, j = word) : (document items).Distinct := by
    have names : [Text.ofString "b", Text.ofString "a"].Nodup := by decide
    refine .object names ?_
    simp only [List.mem_cons, List.not_mem_nil, or_false, forall_eq_or_imp, forall_eq]
    exact ⟨.array fun j hj => h j hj ▸ .text _, .text _⟩
  have one := ofSample_eq_ok_iff_written (distinct [word] (by simp))
  have two := ofSample_eq_ok_iff_written (distinct [word, word] (by simp))
  refine ⟨⟨_, rfl, one.2.1 _ rfl⟩, two.2.2 fun written => ?_⟩
  obtain ⟨d, read⟩ := two.1.2 written
  cases read

end SampleTypes.Descriptor
