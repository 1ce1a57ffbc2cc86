import SampleTypes.Proofs.Declaration.Basic
import SampleTypes.Proofs.Descriptor.Names
import SampleTypes.Proofs.Text.Control

/-!
# Names in declarations

A declaration has the name of its type and the names of the fields in it as they are. All the rest
is printable ASCII, and behind every name comes a code point that no control sequence goes over. So
whether a declaration has bytes, and whether it is printed as it is, depends on its names alone.

## Main definitions

* `Descriptor.ShowsControl` — a type whose names alone bring control sequences into its text

## Main results

* `Descriptor.encodable_declare_iff` — a declaration without surrogates
* `Descriptor.holdsControl_declare_iff` — a declaration in which a control sequence stands
-/

namespace SampleTypes

open Declaration
open Outline (EncodableNames encodableNames_object)

namespace Declaration

theorem ascii_word (tag : Tag) : Text.Ascii (word tag) := by cases tag <;> decide

theorem ascii_indent (level : Int) : Text.Ascii (indent level) := by
  intro c hc
  rw [eq_blank_of_mem_indent hc]
  decide

end Declaration

namespace Descriptor

/-! ## Surrogates -/

theorem encodable_line_iff (level : Int) (field : Text × Descriptor) :
    (line level field).Encodable ↔
      field.1.Encodable ∧ (field.2.format (level + 1)).Encodable := by
  have blanks : Text.Encodable (indent level) := (ascii_indent level).isSurrogate_eq
  have colon : Text.Encodable (Text.ofString ": ") := by decide
  have semicolon : Text.Encodable [ofChar ';'] := by decide
  have lineEnd : Text.Encodable [ofChar '\n'] := by decide
  simp only [line, fieldLine, Text.encodable_append, blanks, colon, semicolon, lineEnd, true_and,
    and_true]

/-- A type is written without surrogates if none is in its names. -/
theorem encodable_format_iff (level : Int) (d : Descriptor) :
    (d.format level).Encodable ↔ EncodableNames d := by
  induction d generalizing level with
  | primitive tag =>
    exact iff_of_true (ascii_word tag).isSurrogate_eq (encodableNames_primitive tag)
  | array element ih =>
    have brackets : Text.Encodable (Text.ofString "[]") := by decide
    rw [format_array, Text.encodable_append, and_iff_left brackets, ih]
    rfl
  | object fields ih =>
    cases fields with
    | nil =>
      have empty : Text.Encodable (Text.ofString "\x7b\x7d") := by decide
      exact iff_of_true empty nofun
    | cons field fields =>
      have opening : Text.Encodable (Text.ofString "\x7b\n") := by decide
      have closing : Text.Encodable [ofChar '\x7d'] := by decide
      rw [format_object_cons, Text.encodable_append, Text.encodable_append, Text.encodable_append,
        and_iff_right opening, and_iff_left ⟨(ascii_indent _).isSurrogate_eq, closing⟩,
        Text.encodable_flatMap, encodableNames_object]
      refine forall₂_congr fun f hf => ?_
      rw [encodable_line_iff, ih f hf]

theorem encodable_declare_iff (d : Descriptor) (name : Text) :
    (d.declare name).Encodable ↔ name.Encodable ∧ EncodableNames d := by
  have opening : Text.Encodable (Text.ofString "type ") := by decide
  have equals : Text.Encodable (Text.ofString " = ") := by decide
  have closing : Text.Encodable [ofChar ';'] := by decide
  simp only [declare_eq, Declaration.declare, Text.encodable_append, opening, equals, closing,
    encodable_format_iff, true_and, and_true]

/-! ## Control sequences -/

/-- A type whose names alone decide whether a control sequence stands in its text. -/
def ShowsControl (d : Descriptor) : Prop :=
  ∀ (level : Int) (rest : Text), 1 ≤ level →
    ((d.format level ++ rest).HoldsControl ↔
      (∃ name ∈ Outline.allNames d, name.HoldsControl) ∨ rest.HoldsControl)

/-- In the line of a field a control sequence stands in the name or behind the colon. -/
theorem holdsControl_line_append {level : Int} (h : 1 ≤ level) {field : Text × Descriptor}
    (shows : ShowsControl field.2) (rest : Text) :
    (line level field ++ rest).HoldsControl ↔
      (field.1.HoldsControl ∨ ∃ name ∈ Outline.allNames field.2, name.HoldsControl) ∨
        rest.HoldsControl := by
  have unitPlain : ofChar '\x1b' ∉ unit := by decide
  have space : ofChar '\x1b' ∉ [ofChar ' '] := by decide
  have lineEnd : ofChar '\x1b' ∉ [ofChar ';', ofChar '\n'] := by decide
  have behind := Text.holdsControl_append (t := rest) lineEnd
  have colon : Text.ofString ": " = [ofChar ':', ofChar ' '] := rfl
  rw [line_append h, Text.holdsControl_append (ascii_indent _).escape_notMem,
    Text.holdsControl_append unitPlain, colon, List.cons_append,
    Text.holdsControl_append_cons (by decide) (by decide) (by decide) (by decide),
    Text.holdsControl_append space, shows _ _ (by omega), or_assoc]
  exact or_congr_right (or_congr_right behind)

theorem holdsControl_lines_append {level : Int} (h : 1 ≤ level)
    {fields : List (Text × Descriptor)} (shows : ∀ f ∈ fields, ShowsControl f.2) (rest : Text) :
    Text.HoldsControl (fields.flatMap (line level) ++ rest) ↔
      (∃ name ∈ Outline.allNames (.object fields), name.HoldsControl) ∨ rest.HoldsControl := by
  induction fields with
  | nil => simp [Outline.mem_allNames_object]
  | cons f fields ih =>
    rw [List.flatMap_cons, List.append_assoc,
      holdsControl_line_append h (shows f (List.mem_cons_self ..)),
      ih fun g hg => shows g (List.mem_cons_of_mem _ hg), ← or_assoc]
    simp only [Outline.allNames_object_cons, List.exists_mem_cons_iff, List.mem_append,
      or_and_right, exists_or, or_assoc]

theorem showsControl (d : Descriptor) : ShowsControl d := by
  induction d with
  | primitive tag =>
    intro level rest h
    have word : (format level (.primitive tag) ++ rest).HoldsControl ↔ rest.HoldsControl :=
      Text.holdsControl_append (ascii_word tag).escape_notMem
    simpa [Outline.allNames] using word
  | array element ih =>
    intro level rest h
    have brackets : ofChar '\x1b' ∉ Text.ofString "[]" := by decide
    rw [format_array, List.append_assoc, ih _ _ h, Text.holdsControl_append brackets]
    rfl
  | object fields ih =>
    intro level rest h
    cases fields with
    | nil =>
      have empty : ofChar '\x1b' ∉ Text.ofString "\x7b\x7d" := by decide
      rw [format_object_nil, Text.holdsControl_append empty]
      simp [Outline.mem_allNames_object]
    | cons field fields =>
      have opening : ofChar '\x1b' ∉ Text.ofString "\x7b\n" := by decide
      have closing : ofChar '\x1b' ∉ [ofChar '\x7d'] := by decide
      rw [format_object_cons, List.append_assoc, List.append_assoc,
        Text.holdsControl_append opening, holdsControl_lines_append h ih, List.append_assoc,
        Text.holdsControl_append (ascii_indent _).escape_notMem, Text.holdsControl_append closing]

/-- A control sequence stands in a declaration exactly if one stands in the name of the type or in
a name in the type. -/
theorem holdsControl_declare_iff (d : Descriptor) (name : Text) :
    (d.declare name).HoldsControl ↔
      name.HoldsControl ∨ ∃ field ∈ Outline.allNames d, field.HoldsControl := by
  have opening : ofChar '\x1b' ∉ Text.ofString "type " := by decide
  have equals : Text.ofString " = " = ofChar ' ' :: [ofChar '=', ofChar ' '] := rfl
  have behind : ofChar '\x1b' ∉ [ofChar '=', ofChar ' '] := by decide
  have ending : ¬ Text.HoldsControl [ofChar ';'] := Text.not_holdsControl_of_notMem (by decide)
  rw [declare_eq, Declaration.declare, List.append_assoc, List.append_assoc, List.append_assoc,
    Text.holdsControl_append opening, equals, List.cons_append,
    Text.holdsControl_append_cons (by decide) (by decide) (by decide) (by decide),
    Text.holdsControl_append behind, showsControl d 1 _ (by decide), or_iff_left ending]

end Descriptor

end SampleTypes
