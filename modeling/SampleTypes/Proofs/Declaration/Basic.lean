import Mathlib.Logic.Function.Iterate
import SampleTypes.Declaration
import SampleTypes.Proofs.Descriptor.Json
import SampleTypes.Proofs.Text.Ascii

/-!
# The text of a type, part by part

A primitive is a word. An array is the text of its element type with a pair of brackets behind it,
so that nested arrays have their brackets in a row. An object type without fields is a pair of
braces; any other is a line for each field between its braces, and the closing brace stands one
step to the left of the fields.

## Main definitions

* `Declaration.brackets` — the brackets of nested arrays
* `Descriptor.line` — the line of a field, with its end

## Main results

* `Descriptor.format_arrays` — nested arrays have their brackets in a row
* `Descriptor.format_object_cons` — an object type is an opening, its lines and a closing brace
* `Descriptor.declare_eq` — a declaration has the text of its type in it
-/

namespace SampleTypes

/-- Joined texts with one more separator: each text has its own. -/
theorem Text.joinWith_append (separator : Text) {parts : List Text} (h : parts ≠ []) :
    joinWith separator parts ++ separator = parts.flatMap (· ++ separator) := by
  induction parts with
  | nil => exact absurd rfl h
  | cons t rest ih =>
    cases rest with
    | nil => simp [joinWith]
    | cons u rest =>
      have others := ih (List.cons_ne_nil u rest)
      simp only [joinWith, List.append_assoc, others, List.flatMap_cons]

namespace Declaration

/-- The brackets of arrays, of which a number are nested. -/
def brackets (n : Nat) : Text := (List.replicate n (Text.ofString "[]")).flatten

@[simp] theorem brackets_zero : brackets 0 = [] := rfl

theorem brackets_succ (n : Nat) : brackets (n + 1) = Text.ofString "[]" ++ brackets n := rfl

/-- The fields of an object stand one step to the right of its closing brace. -/
theorem indent_eq {level : Int} (h : 1 ≤ level) : indent level = indent (level - 1) ++ unit := by
  obtain ⟨n, rfl⟩ : ∃ n : Nat, level = n + 1 := ⟨(level - 1).toNat, by omega⟩
  have above : ((n : Int) + 1).toNat = n + 1 := by omega
  have below : ((n : Int) + 1 - 1).toNat = n := by omega
  rw [indent, indent, above, below, List.replicate_succ', List.flatten_concat]

/-- Indentation is made of blanks. -/
theorem eq_blank_of_mem_indent {level : Int} {c : CodePoint} (h : c ∈ indent level) :
    c = ofChar ' ' := by
  obtain ⟨t, ht, hc⟩ := List.mem_flatten.1 h
  rw [List.eq_of_mem_replicate ht] at hc
  simpa [unit, Text.ofString] using hc

end Declaration

namespace Descriptor

open Declaration

theorem format?_eq (level : Int) (d : Descriptor) :
    Outline.format? level d = .ok (d.format level) := eq_ok_settled _

theorem formatFields?_eq (level : Int) (fields : List (Text × Descriptor)) :
    Outline.formatFields? level fields =
      .ok (fields.map fun f => fieldLine level f.1 (f.2.format (level + 1))) := by
  induction fields with
  | nil => rfl
  | cons f rest ih =>
    rw [Outline.formatFields?, format?_eq, ih]
    rfl

theorem format_array (level : Int) (element : Descriptor) :
    format level (.array element) = element.format level ++ Text.ofString "[]" := by
  rw [format, Outline.format?, format?_eq]
  rfl

theorem format_object (level : Int) (fields : List (Text × Descriptor)) :
    format level (.object fields) =
      braces level (fields.map fun f => fieldLine level f.1 (f.2.format (level + 1))) := by
  rw [format, Outline.format?, formatFields?_eq]
  rfl

theorem declare_eq (d : Descriptor) (name : Text) :
    d.declare name = Declaration.declare name (d.format 1) := by
  rw [declare, Outline.declare?, format?_eq]
  rfl

/-- The brackets of an array go to those behind it. -/
theorem format_array_append (level : Int) (element : Descriptor) (n : Nat) (rest : Text) :
    format level (.array element) ++ (brackets n ++ rest) =
      element.format level ++ (brackets (n + 1) ++ rest) := by
  rw [format_array, List.append_assoc, ← List.append_assoc (Text.ofString "[]"), ← brackets_succ]

/-- Nested arrays have their brackets in a row, behind the text of what they are arrays of. -/
theorem format_arrays (level : Int) (n : Nat) (d : Descriptor) :
    format level (Outline.array^[n] d) = d.format level ++ brackets n := by
  induction n generalizing d with
  | zero => simp
  | succ n ih =>
    have behind := format_array_append level d n []
    simp only [List.append_nil] at behind
    rw [Function.iterate_succ_apply, ih, behind]

theorem format_object_nil (level : Int) : format level (.object []) = Text.ofString "\x7b\x7d" :=
  rfl

/-- The line of a field, with its end. -/
def line (level : Int) (field : Text × Descriptor) : Text :=
  fieldLine level field.1 (field.2.format (level + 1)) ++ [ofChar '\n']

/-- A line begins where the closing brace would stand, with a step to the right. -/
theorem line_append {level : Int} (h : 1 ≤ level) (field : Text × Descriptor) (rest : Text) :
    line level field ++ rest = indent (level - 1) ++ (unit ++ (field.1 ++ (Text.ofString ": " ++
      (field.2.format (level + 1) ++ (ofChar ';' :: ofChar '\n' :: rest))))) := by
  simp only [line, fieldLine, indent_eq h, List.append_assoc, List.cons_append, List.nil_append]

/-- An object type with fields: an opening brace, the lines of its fields, and a closing brace. -/
theorem format_object_cons (level : Int) (field : Text × Descriptor)
    (fields : List (Text × Descriptor)) :
    format level (.object (field :: fields)) =
      Text.ofString "\x7b\n" ++ (field :: fields).flatMap (line level) ++
        (indent (level - 1) ++ [ofChar '\x7d']) := by
  have lines : (field :: fields).flatMap (line level) = Text.joinWith [ofChar '\n']
      ((field :: fields).map fun f => fieldLine level f.1 (f.2.format (level + 1))) ++
        [ofChar '\n'] := by
    rw [Text.joinWith_append _ (by simp), List.flatMap_map]
    rfl
  rw [format_object, braces, if_neg (by simp), lines]
  simp only [List.append_assoc, List.cons_append, List.nil_append]

theorem format_object_of_ne_nil (level : Int) {fields : List (Text × Descriptor)}
    (h : fields ≠ []) :
    format level (.object fields) =
      Text.ofString "\x7b\n" ++ fields.flatMap (line level) ++
        (indent (level - 1) ++ [ofChar '\x7d']) := by
  obtain ⟨field, rest, rfl⟩ := List.exists_cons_of_ne_nil h
  exact format_object_cons level field rest

end Descriptor

end SampleTypes
