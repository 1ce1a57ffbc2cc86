import SampleTypes.Proofs.Declaration.Unique

/-!
# The text of a type within another

The text of a type says at which level its fields stand by blanks at the beginnings of its lines,
and by nothing else. So the text at a deeper level is the text with blanks behind every line feed,
if no name in the type has a line feed of its own. Where a type stands within another, its text is
moved in this way by one step for every object around it, and by none for an array.

## Main definitions

* `Text.shifted` — a text with blanks behind every line feed
* `Descriptor.Context` — a type with a place in it that is left open
* `Context.fill`, `Context.depth` — the type with the place filled, and the number of objects around
  the place
* `Context.opening`, `Context.closing` — the text around the place

## Main results

* `Descriptor.format_shifted` — the text of a type at a deeper level
* `Descriptor.format_fill` — a type stands as it is in the text of a type around it
* `Descriptor.format_add_eq_shifted` — both
-/

namespace SampleTypes

namespace Text

/-- A number of blanks. -/
def blanks (width : Nat) : Text := List.replicate width (ofChar ' ')

/-- A text with a number of blanks behind every line feed. -/
def shifted (width : Nat) (t : Text) : Text :=
  t.flatMap fun c => if c = ofChar '\n' then c :: blanks width else [c]

theorem shifted_append (width : Nat) (s t : Text) :
    shifted width (s ++ t) = shifted width s ++ shifted width t :=
  List.flatMap_append

/-- A text on one line stays where it is. -/
theorem OneLine.shifted_eq {t : Text} (h : t.OneLine) (width : Nat) : shifted width t = t := by
  have single : ∀ c ∈ t, (if c = ofChar '\n' then c :: blanks width else [c]) = [c] := by
    intro c hc
    rw [if_neg]
    rintro rfl
    exact h hc
  rw [shifted, List.flatMap_congr single, List.flatMap_singleton']

end Text

namespace Declaration

open Text (blanks shifted shifted_append)

theorem blanks_two_mul (k : Nat) : blanks (2 * k) = (List.replicate k unit).flatten := by
  induction k with
  | zero => rfl
  | succ k ih =>
    rw [List.replicate_succ, List.flatten_cons, ← ih, Nat.mul_succ, Nat.add_comm, blanks,
      List.replicate_add]
    rfl

/-- The indentation of a deeper level begins with two blanks for every step. -/
theorem indent_add {level : Int} (h : 0 ≤ level) (k : Nat) :
    indent (level + k) = blanks (2 * k) ++ indent level := by
  have steps : (level + k).toNat = k + level.toNat := by omega
  rw [indent, steps, List.replicate_add, List.flatten_append, ← blanks_two_mul, indent]

theorem oneLine_indent (level : Int) : (indent level).OneLine :=
  fun h => absurd (eq_blank_of_mem_indent h) (by decide)

theorem oneLine_word (tag : Tag) : (word tag).OneLine := by cases tag <;> decide

end Declaration

namespace Descriptor

open Declaration Outline
open Text (blanks shifted shifted_append)

/-! ## Deeper levels -/

/-- In a line that is moved, the blanks behind the line feed are those of the next line. -/
theorem shifted_line {level : Int} (h : 0 ≤ level) (k : Nat) {field : Text × Descriptor}
    (name : field.1.OneLine)
    (type : (field.2.format (level + 1)).shifted (2 * k) = field.2.format (level + k + 1)) :
    blanks (2 * k) ++ shifted (2 * k) (line level field) =
      line (level + k) field ++ blanks (2 * k) := by
  have colon : (Text.ofString ": ").OneLine := by decide
  have semicolon : Text.OneLine [ofChar ';'] := by decide
  have lineEnd : shifted (2 * k) [ofChar '\n'] = [ofChar '\n'] ++ blanks (2 * k) := by
    simp [shifted]
  simp only [line, fieldLine, shifted_append, (oneLine_indent level).shifted_eq, name.shifted_eq,
    colon.shifted_eq, semicolon.shifted_eq, type, lineEnd, indent_add h, List.append_assoc]

theorem shifted_lines {level : Int} (k : Nat) {fields : List (Text × Descriptor)}
    (moved : ∀ f ∈ fields, blanks (2 * k) ++ shifted (2 * k) (line level f) =
      line (level + k) f ++ blanks (2 * k)) :
    blanks (2 * k) ++ shifted (2 * k) (fields.flatMap (line level)) =
      fields.flatMap (line (level + k)) ++ blanks (2 * k) := by
  induction fields with
  | nil => simp [shifted]
  | cons f fields ih =>
    obtain ⟨first, others⟩ := List.forall_mem_cons.1 moved
    rw [List.flatMap_cons, shifted_append, ← List.append_assoc, first, List.append_assoc,
      ih others, List.flatMap_cons, List.append_assoc]

/-- The text of a type at a deeper level is its text with blanks behind every line feed. -/
theorem format_shifted {d : Descriptor} (h : OneLineNames d) {level : Int} (hlevel : 1 ≤ level)
    (k : Nat) : (d.format level).shifted (2 * k) = d.format (level + k) := by
  -- The level is general, because that of the fields' types is one more.
  induction d generalizing level with
  | primitive tag => exact (oneLine_word tag).shifted_eq _
  | array element ih =>
    have brackets : (Text.ofString "[]").OneLine := by decide
    rw [format_array, shifted_append, ih h.element hlevel, brackets.shifted_eq, format_array]
  | object fields ih =>
    by_cases empty : fields = []
    · have braces : (Text.ofString "\x7b\x7d").OneLine := by decide
      rw [empty, format_object_nil, braces.shifted_eq, format_object_nil]
    · -- The blanks behind the opening brace go past all lines, to the closing brace.
      have opening : shifted (2 * k) (Text.ofString "\x7b\n") =
          Text.ofString "\x7b\n" ++ blanks (2 * k) := by
        have notLineEnd : ofChar '\x7b' ≠ ofChar '\n' := by decide
        simp [shifted, Text.ofString, notLineEnd]
      have closing : Text.OneLine [ofChar '\x7d'] := by decide
      have types : ∀ f ∈ fields,
          (format (level + 1) f.2).shifted (2 * k) = format (level + k + 1) f.2 := by
        intro f hf
        rw [ih f hf (h.field hf) (by omega), Int.add_right_comm]
      have lines := shifted_lines k fun f hf =>
        shifted_line (by omega : 0 ≤ level) k (h.name hf) (types f hf)
      have lower : level + k - 1 = level - 1 + k := by omega
      rw [format_object_of_ne_nil _ empty, format_object_of_ne_nil _ empty, shifted_append,
        shifted_append, shifted_append, opening, (oneLine_indent _).shifted_eq, closing.shifted_eq,
        List.append_assoc (Text.ofString _), lines, lower, indent_add (by omega)]
      simp only [List.append_assoc]

/-! ## Types within types -/

/-- A type with a place in it that is left open. -/
inductive Context where
  /-- All of it is left open. -/
  | here
  /-- The place is in the element type of an array. -/
  | element (within : Context)
  /-- The place is in the type of one field of an object. -/
  | field (before : List (Text × Descriptor)) (name : Text) (within : Context)
      (after : List (Text × Descriptor))

namespace Context

/-- The type with the place filled. -/
def fill : Context → Descriptor → Descriptor
  | here, d => d
  | element within, d => .array (within.fill d)
  | field before name within after, d => .object (before ++ (name, within.fill d) :: after)

/-- The number of objects around the place. -/
def depth : Context → Nat
  | here => 0
  | element within => within.depth
  | field _ _ within _ => within.depth + 1

/-- The text before the place, if the fields of the type stand at a level. -/
def opening (level : Int) : Context → Text
  | here => []
  | element within => within.opening level
  | field before name within _ =>
    Text.ofString "\x7b\n" ++ before.flatMap (line level) ++ indent level ++ name ++
      Text.ofString ": " ++ within.opening (level + 1)

/-- The text behind the place. -/
def closing (level : Int) : Context → Text
  | here => []
  | element within => within.closing level ++ Text.ofString "[]"
  | field _ _ within after =>
    within.closing (level + 1) ++ Text.ofString ";\n" ++ after.flatMap (line level) ++
      indent (level - 1) ++ [ofChar '\x7d']

end Context

/-- A type stands in the text of a type around it as it is at its own level. -/
theorem format_fill (c : Context) (level : Int) (d : Descriptor) :
    (c.fill d).format level =
      c.opening level ++ (d.format (level + c.depth) ++ c.closing level) := by
  induction c generalizing level with
  | here => simp [Context.fill, Context.opening, Context.closing, Context.depth]
  | element within ih =>
    simp only [Context.fill, Context.opening, Context.closing, Context.depth, format_array, ih,
      List.append_assoc]
  | field before name within after ih =>
    have deeper : level + 1 + within.depth = level + (within.depth + 1 : Nat) := by omega
    have lineEnd : Text.ofString ";\n" = [ofChar ';'] ++ [ofChar '\n'] := rfl
    rw [Context.fill, format_object_of_ne_nil level (by simp), List.flatMap_append,
      List.flatMap_cons, line, fieldLine, ih, deeper]
    simp only [Context.opening, Context.closing, Context.depth, lineEnd, List.append_assoc]

/-- The text of a type at a deeper level is its text with two blanks for every step behind every
line feed, if no name in it has a line feed of its own. So wherever the type stands within another,
what stands there is its own text moved by the number of the objects around it, arrays not
counted; at the first level that is the text that it has in a declaration. -/
theorem format_add_eq_shifted {d : Descriptor} (h : OneLineNames d) {level : Int}
    (hlevel : 1 ≤ level) :
    (∀ k : Nat, d.format (level + k) = (d.format level).shifted (2 * k)) ∧
      ∀ c : Context, (c.fill d).format level =
        c.opening level ++ ((d.format level).shifted (2 * c.depth) ++ c.closing level) := by
  refine ⟨fun k => (format_shifted h hlevel k).symm, fun c => ?_⟩
  rw [format_fill, format_shifted h hlevel]

/-- An array of objects in a field of an object in an array. -/
theorem format_of_array_within_arrays :
    let inner : Descriptor := .object [(Text.ofString "a b", .array (.primitive .null))]
    let outer : Descriptor := .array (.object [(Text.ofString "\x7b:", .array inner)])
    inner.format 3 = (inner.format 1).shifted 4 ∧
      outer.format 1 = Text.ofString "\x7b\n  \x7b:: " ++
        ((inner.format 1).shifted 2 ++ Text.ofString "[];\n\x7d[]") := by
  intro inner outer
  have names : OneLineNames inner :=
    .object (by decide) (List.forall_mem_singleton.2 (.array (.primitive _)))
  obtain ⟨deeper, within⟩ := format_add_eq_shifted names (by decide : (1 : Int) ≤ 1)
  exact ⟨deeper 2, within (.element (.field [] (Text.ofString "\x7b:") (.element .here) []))⟩

end Descriptor

end SampleTypes
