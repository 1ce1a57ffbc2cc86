import SampleTypes.Proofs.Declaration.Nested
import SampleTypes.Proofs.Descriptor.Shape

/-!
# The lines of a declaration

Moving the fields of an object moves their lines. The first and the last line of a type are shared
with what stands around it: with the name of the field that it is the type of, with the brackets
of arrays, with a semicolon. What a type brings into a text is therefore said by the lines of all
texts that it stands in; two types of one shape bring the same lines, in some order, into each.
Names may have line feeds of their own, which only make more lines.

## Main definitions

* `Text.lines` — the lines of a text
* `Text.SameLines` — texts that bring the same lines into every text around them

## Main results

* `Text.lines_append_cons` — the lines before and behind a line feed
* `Descriptor.sameLines_of_reordered` — moving fields only moves lines
* `Descriptor.perm_lines_declare` — declarations of types of one shape have the same lines
-/

namespace SampleTypes

namespace Text

/-! ## Lines -/

theorem split_ne_nil (c : CodePoint) (t : Text) : split c t ≠ [] := by
  cases t with
  | nil => exact List.cons_ne_nil _ _
  | cons d t =>
    rw [split]
    split
    · exact List.cons_ne_nil _ _
    · split_ifs <;> exact List.cons_ne_nil _ _

theorem split_cons (c d : CodePoint) {t part : Text} {parts : List Text}
    (h : split c t = part :: parts) :
    split c (d :: t) = if d = c then [] :: part :: parts else (d :: part) :: parts := by
  rw [split, h]

/-- The parts of a text are those before and those behind a code point that it is split at. -/
theorem split_append_cons (c : CodePoint) (s t : Text) :
    split c (s ++ c :: t) = split c s ++ split c t := by
  induction s with
  | nil =>
    obtain ⟨part, parts, h⟩ := List.exists_cons_of_ne_nil (split_ne_nil c t)
    rw [List.nil_append, split_cons c c h, if_pos rfl, h]
    rfl
  | cons d s ih =>
    obtain ⟨part, parts, h⟩ := List.exists_cons_of_ne_nil (split_ne_nil c s)
    have whole : split c (s ++ c :: t) = part :: (parts ++ split c t) := by
      rw [ih, h, List.cons_append]
    rw [List.cons_append, split_cons c d whole, split_cons c d h]
    split_ifs <;> rfl

/-- The lines of a text, without the line feeds between them. -/
def lines (t : Text) : List Text := t.split (ofChar '\n')

theorem lines_append_cons (s t : Text) : lines (s ++ ofChar '\n' :: t) = lines s ++ lines t :=
  split_append_cons _ s t

/-! ## The same lines in every text -/

/-- In whatever text the one is replaced by the other, the lines are the same, in some order. -/
def SameLines (s t : Text) : Prop :=
  ∀ before after : Text, (lines (before ++ s ++ after)).Perm (lines (before ++ t ++ after))

variable {r s t : Text}

theorem SameLines.refl (t : Text) : SameLines t t := fun _ _ => .refl _

theorem SameLines.trans (hrs : SameLines r s) (hst : SameLines s t) : SameLines r t :=
  fun before after => (hrs before after).trans (hst before after)

theorem SameLines.perm (h : SameLines s t) : (lines s).Perm (lines t) := by
  simpa using h [] []

/-- The texts may stand within another text. -/
theorem SameLines.within (h : SameLines s t) (before after : Text) :
    SameLines (before ++ (s ++ after)) (before ++ (t ++ after)) := by
  intro first last
  have whole := h (first ++ before) (after ++ last)
  simpa only [List.append_assoc] using whole

end Text

namespace Descriptor

open Declaration
open Text (SameLines lines lines_append_cons)

/-- The lines of fields that come behind a line feed, each with what it brings with it. -/
theorem lines_append_fields (level : Int) (before after : Text)
    (fields : List (Text × Descriptor)) :
    lines (before ++ ofChar '\n' :: (fields.flatMap (line level) ++ after)) =
      lines before ++
        (fields.flatMap (fun f => lines (fieldLine level f.1 (f.2.format (level + 1)))) ++
          lines after) := by
  rw [lines_append_cons]
  congr 1
  induction fields with
  | nil => rfl
  | cons f fields ih =>
    rw [List.flatMap_cons, line, List.append_assoc, List.append_assoc, List.singleton_append,
      lines_append_cons, ih, List.flatMap_cons, List.append_assoc]

/-- Fields that are moved bring the same lines into every text. -/
theorem sameLines_of_perm (level : Int) {as bs : List (Text × Descriptor)} (h : as.Perm bs) :
    SameLines (format level (.object as)) (format level (.object bs)) := by
  by_cases empty : as = []
  · obtain rfl : bs = [] := List.nil_perm.1 (empty ▸ h)
    rw [empty]
    exact .refl _
  · have empty' : bs ≠ [] := fun none => empty (List.perm_nil.1 (none ▸ h))
    intro before after
    have opening : Text.ofString "\x7b\n" = [ofChar '\x7b', ofChar '\n'] := rfl
    -- The fields stand between the line that the opening brace ends and the one that the closing
    -- brace begins, so that each of them has lines of its own.
    have moved := h.flatMap_right fun f => lines (fieldLine level f.1 (f.2.format (level + 1)))
    have whole := (moved.append_right (lines (indent (level - 1) ++ ([ofChar '\x7d'] ++ after))))
      |>.append_left (lines (before ++ [ofChar '\x7b']))
    rw [← lines_append_fields, ← lines_append_fields] at whole
    rw [format_object_of_ne_nil level empty, format_object_of_ne_nil level empty', opening]
    simpa only [List.append_assoc, List.cons_append, List.nil_append] using whole

/-- Types that bring the same lines do so within any type around them. -/
theorem sameLines_fill {a b : Descriptor}
    (h : ∀ level : Int, SameLines (a.format level) (b.format level)) (c : Context) (level : Int) :
    SameLines ((c.fill a).format level) ((c.fill b).format level) := by
  rw [format_fill, format_fill]
  exact (h _).within _ _

/-- A type that is made of another by moving fields, at any depth, brings the same lines into every
text. -/
theorem sameLines_of_reordered {a b : Descriptor} (h : Outline.Reordered a b) (level : Int) :
    SameLines (a.format level) (b.format level) := by
  -- On the steps of the reordering; the level is general because a step may be within an object.
  induction h generalizing level with
  | refl d => exact .refl _
  | trans _ _ ihab ihbc => exact (ihab level).trans (ihbc level)
  | move h => exact sameLines_of_perm level h
  | element _ ih => exact sameLines_fill ih (.element .here) level
  | field before after name _ ih => exact sameLines_fill ih (.field before name .here after) level

/-- Types of one shape whose objects repeat no name are declared in the same lines, in some order.
The names in them may have line feeds. -/
theorem perm_lines_declare {a b : Descriptor} (ha : Outline.Distinct a) (hb : Outline.Distinct b)
    (h : a.sameShape b = true) (name : Text) :
    (lines (a.declare name)).Perm (lines (b.declare name)) := by
  have reordered := (shapeKey_eq_iff_of_distinct ha hb).1 (sameShape_iff.1 h)
  have types := (sameLines_of_reordered reordered 1).within
    (Text.ofString "type " ++ name ++ Text.ofString " = ") [ofChar ';']
  rw [declare_eq, declare_eq, Declaration.declare, Declaration.declare]
  simpa only [List.append_assoc] using types.perm

/-- Fields are moved at two depths; one name has two lines, of which one looks like the end of an
object. -/
theorem perm_lines_declare_of_two_orders :
    let a : Text × Descriptor := (Text.ofString "a\n\x7d;", .primitive .string)
    let b : Text × Descriptor := (Text.ofString "b", .object [])
    let c : Text × Descriptor := (Text.ofString "c", .primitive .number)
    let d : Descriptor := .object [c, (Text.ofString "d", .array (.object [a, b]))]
    let e : Descriptor := .object [(Text.ofString "d", .array (.object [b, a])), c]
    let name := Text.ofString "Sample"
    d ≠ e ∧ (lines (d.declare name)).Perm (lines (e.declare name)) := by
  intro a b c d e name
  have inner : Outline.Reordered (.array (.object [a, b])) (.array (.object [b, a])) :=
    .element (.move (.swap ..))
  have whole : Outline.Reordered d e :=
    .trans (.field [c] [] (Text.ofString "d") inner) (.move (.swap ..))
  have distinct : Outline.Distinct d := by
    refine .object (by decide) ?_
    simp only [List.forall_mem_cons]
    refine ⟨.primitive _, .array (.object (by decide) ?_), by simp⟩
    simp only [List.forall_mem_cons]
    exact ⟨.primitive _, .object .nil nofun, by simp⟩
  have distinct' := (whole.sorted_eq distinct).2
  have same : d.sameShape e = true :=
    sameShape_iff.2 ((shapeKey_eq_iff_of_distinct distinct distinct').2 whole)
  exact ⟨by simp [d, e, c], perm_lines_declare distinct distinct' same name⟩

end Descriptor

end SampleTypes
