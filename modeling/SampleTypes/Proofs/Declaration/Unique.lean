import SampleTypes.Proofs.Declaration.Basic

/-!
# Declarations tell types apart

The names of fields stand in a declaration as they are, without quotes. It is still seen what type
a text is the text of, as long as every name stands on one line: a line of an object type ends in a
type without colons, or in the opening brace of one, so that its name ends at the last colon; and
the closing brace of an object type stands where its lines have blanks, whatever their names begin
with. Only null and the unknown type have one word.

## Main definitions

* `Text.OneLine`, `Outline.OneLineNames` — names that stand on one line
* `Outline.forgetNull` — a type in which null counts as unknown
* `Descriptor.ToldApart` — a type that is known from its text, whatever follows it

## Main results

* `Descriptor.toldApart_of_oneLineNames` — types whose names stand on one line are told apart
* `Descriptor.format_eq_iff_forgetNull` — which types have one text
-/

namespace SampleTypes

/-! ## Names on one line -/

/-- A text without line feeds. -/
def Text.OneLine (t : Text) : Prop := ofChar '\n' ∉ t

instance (t : Text) : Decidable t.OneLine := inferInstanceAs (Decidable (_ ∉ _))

/-- The part of a text before its first line feed. -/
def Text.firstLine (t : Text) : Text := t.takeWhile (· != ofChar '\n')

theorem Text.OneLine.firstLine_append {t : Text} (h : t.OneLine) (rest : Text) :
    (t ++ rest).firstLine = t ++ rest.firstLine := by
  apply List.takeWhile_append_of_pos
  intro c hc
  rw [bne_iff_ne]
  rintro rfl
  exact h hc

namespace Outline

variable {φ : Type}

/-- Every name of a field, at any depth, stands on one line. -/
inductive OneLineNames : Outline φ → Prop
  | primitive (tag : Tag) : OneLineNames (.primitive tag)
  | array {element : Outline φ} (h : OneLineNames element) : OneLineNames (.array element)
  | object {fields : List (Text × Outline φ)} (names : ∀ f ∈ fields, f.1.OneLine)
      (h : ∀ f ∈ fields, OneLineNames f.2) : OneLineNames (.object fields)
  | stray (value : φ) : OneLineNames (.stray value)

theorem OneLineNames.element {o : Outline φ} (h : OneLineNames (.array o)) : OneLineNames o := by
  cases h with
  | array h => exact h

theorem OneLineNames.name {fields : List (Text × Outline φ)} (h : OneLineNames (.object fields))
    {f : Text × Outline φ} (hf : f ∈ fields) : f.1.OneLine := by
  cases h with
  | object names _ => exact names f hf

theorem OneLineNames.field {fields : List (Text × Outline φ)} (h : OneLineNames (.object fields))
    {f : Text × Outline φ} (hf : f ∈ fields) : OneLineNames f.2 := by
  cases h with
  | object _ h => exact h f hf

/-! ## Forgetting null -/

mutual

/-- A type in which null counts as unknown, at every depth. -/
def forgetNull : Outline φ → Outline φ
  | .primitive tag => .primitive (if tag = .null then .unknown else tag)
  | .array element => .array (forgetNull element)
  | .object fields => .object (forgetNullFields fields)
  | .stray value => .stray value
termination_by structural o => o

/-- Forgetting null within each field. -/
def forgetNullFields : List (Text × Outline φ) → List (Text × Outline φ)
  | [] => []
  | (name, o) :: rest => (name, forgetNull o) :: forgetNullFields rest
termination_by structural fields => fields

end

theorem forgetNull_object (fields : List (Text × Outline φ)) :
    forgetNull (.object fields) = .object (fields.map fun f => (f.1, f.2.forgetNull)) := by
  rw [forgetNull]
  congr 1
  induction fields with
  | nil => rfl
  | cons f rest ih => rw [forgetNullFields, ih, List.map_cons]

theorem forgetNull_arrays (n : Nat) (o : Outline φ) :
    (array^[n] o).forgetNull = array^[n] o.forgetNull := by
  induction n generalizing o with
  | zero => rfl
  | succ n ih => rw [Function.iterate_succ_apply, ih, Function.iterate_succ_apply, forgetNull]

end Outline

namespace Declaration

/-! ## Words, brackets and names -/

theorem word_forgetNull (tag : Tag) : word (if tag = .null then .unknown else tag) = word tag := by
  cases tag <;> rfl

/-- No word begins another. -/
theorem word_append_inj {s t : Tag} {r u : Text} (h : word s ++ r = word t ++ u) :
    (if s = .null then Tag.unknown else s) = (if t = .null then .unknown else t) ∧ r = u := by
  have apart : ∀ s t : Tag, word s <+: word t →
      (if s = .null then Tag.unknown else s) = (if t = .null then .unknown else t) := by
    intro s t
    cases s <;> cases t <;> decide
  have same : (if s = .null then Tag.unknown else s) = if t = .null then .unknown else t := by
    have left : word s <+: word t ++ u := h ▸ List.prefix_append _ _
    rcases List.prefix_or_prefix_of_prefix left (List.prefix_append _ _) with begins | begins
    · exact apart s t begins
    · exact (apart t s begins).symm
  refine ⟨same, ?_⟩
  rw [← word_forgetNull s, same, word_forgetNull t] at h
  exact List.append_cancel_left h

/-- What follows the text of a type begins with no bracket. -/
def Closed (rest : Text) : Prop := ∀ t, rest ≠ ofChar '[' :: t

theorem closed_nil : Closed [] := nofun

theorem closed_semicolon (rest : Text) : Closed (ofChar ';' :: rest) :=
  fun _ h => absurd (List.cons.inj h).1 (by decide)

theorem brackets_append_inj {m n : Nat} {r s : Text} (hr : Closed r) (hs : Closed s)
    (h : brackets m ++ r = brackets n ++ s) : m = n ∧ r = s := by
  induction m generalizing n with
  | zero =>
    cases n with
    | zero => exact ⟨rfl, h⟩
    | succ n => exact absurd h (hr _)
  | succ m ih =>
    cases n with
    | zero => exact absurd h.symm (hs _)
    | succ n =>
      rw [brackets_succ, brackets_succ, List.append_assoc, List.append_assoc] at h
      obtain ⟨rfl, rest⟩ := ih (List.append_cancel_left h)
      exact ⟨rfl, rest⟩

theorem takeWhile_reverse {c : CodePoint} {t : Text} (h : c ∉ t) (m : Text) :
    (m ++ c :: t).reverse.takeWhile (· != c) = t.reverse := by
  have apart : ∀ d ∈ t.reverse, (d != c) = true := by
    intro d hd
    rw [bne_iff_ne]
    rintro rfl
    exact h (List.mem_reverse.1 hd)
  rw [List.reverse_append, List.reverse_cons, List.append_assoc,
    List.takeWhile_append_of_pos apart]
  simp

/-- Texts are the same if they are so after they are split at the last place of a code point. -/
theorem append_cons_inj {c : CodePoint} {m n t u : Text} (ht : c ∉ t) (hu : c ∉ u)
    (h : m ++ c :: t = n ++ c :: u) : m = n ∧ t = u := by
  have ends := congrArg (fun l => (List.reverse l).takeWhile (· != c)) h
  simp only [takeWhile_reverse ht, takeWhile_reverse hu] at ends
  obtain rfl := List.reverse_injective ends
  exact ⟨List.append_cancel_right h, rfl⟩

/-- A name ends at the last colon of its line. -/
theorem name_append_inj {m n t u : Text} (hm : m.OneLine) (hn : n.OneLine)
    (ht : ofChar ':' ∉ t.firstLine) (hu : ofChar ':' ∉ u.firstLine)
    (h : m ++ (Text.ofString ": " ++ t) = n ++ (Text.ofString ": " ++ u)) : m = n ∧ t = u := by
  have separator : (Text.ofString ": ").OneLine := by decide
  have lines := congrArg Text.firstLine h
  rw [hm.firstLine_append, hn.firstLine_append, separator.firstLine_append,
    separator.firstLine_append] at lines
  have noColon {t : Text} (ht : ofChar ':' ∉ t) : ofChar ':' ∉ ofChar ' ' :: t :=
    List.not_mem_cons_of_ne_of_not_mem (by decide) ht
  obtain ⟨rfl, -⟩ := append_cons_inj (noColon ht) (noColon hu) lines
  exact ⟨rfl, List.append_cancel_left (List.append_cancel_left h)⟩

theorem colon_notMem_firstLine {t rest : Text} (line : t.OneLine) (ht : ofChar ':' ∉ t)
    (h : ofChar ':' ∉ rest.firstLine) : ofChar ':' ∉ (t ++ rest).firstLine := by
  rw [line.firstLine_append]
  exact List.not_mem_append ht h

theorem word_append_ne_brace (tag : Tag) (r t : Text) : word tag ++ r ≠ ofChar '\x7b' :: t := by
  intro h
  cases tag <;> exact absurd (List.cons.inj h).1 (by decide)

end Declaration

namespace Descriptor

open Declaration Outline

/-! ## Lines -/

/-- The line in which the text of a type begins has no colon in it. -/
theorem colon_notMem_firstLine_format (level : Int) (d : Descriptor) {rest : Text}
    (h : ofChar ':' ∉ rest.firstLine) : ofChar ':' ∉ (d.format level ++ rest).firstLine := by
  induction d generalizing rest with
  | primitive tag =>
    have word : (word tag).OneLine ∧ ofChar ':' ∉ word tag := by cases tag <;> decide
    exact colon_notMem_firstLine word.1 word.2 h
  | array element ih =>
    rw [format_array, List.append_assoc]
    exact ih (colon_notMem_firstLine (by decide) (by decide) h)
  | object fields _ =>
    cases fields with
    | nil =>
      rw [format_object_nil]
      exact colon_notMem_firstLine (by decide) (by decide) h
    | cons f rest =>
      rw [format_object_cons, List.append_assoc, List.append_assoc]
      change ofChar ':' ∉ [ofChar '\x7b']
      decide

/-! ## What a text is the text of -/

/-- Of a type it is known from its text, wherever the fields stand and whatever follows, how often
it is an array of which other type, if null counts as unknown. -/
def ToldApart (d : Descriptor) : Prop :=
  ∀ (level : Int) (e : Descriptor) (m n : Nat) (r s : Text), 1 ≤ level → OneLineNames e →
    Closed r → Closed s →
      d.format level ++ (brackets m ++ r) = e.format level ++ (brackets n ++ s) →
        forgetNull (array^[m] d) = forgetNull (array^[n] e) ∧ r = s

theorem exists_format_object (level : Int) (fields : List (Text × Descriptor)) :
    ∃ t, format level (.object fields) = ofChar '\x7b' :: t := by
  cases fields with
  | nil => exact ⟨_, rfl⟩
  | cons f fields => exact ⟨_, format_object_cons level f fields⟩

/-- A type is told apart if it is told apart from what is no array. -/
theorem ToldApart.of_ne_array {d : Descriptor}
    (h : ∀ (level : Int) (e : Descriptor) (r s : Text), 1 ≤ level → OneLineNames e →
      (∀ x, e ≠ .array x) → d.format level ++ r = e.format level ++ s →
        forgetNull d = forgetNull e ∧ r = s) : ToldApart d := by
  intro level e m n r s hlevel names hr hs same
  -- The brackets of the other type go to those behind it, until it is no array.
  induction e generalizing n with
  | array element ih =>
    rw [format_array_append] at same
    exact ih (n + 1) names.element same
  | _ =>
    obtain ⟨type, following⟩ := h level _ _ _ hlevel names nofun same
    obtain ⟨rfl, rest⟩ := brackets_append_inj hr hs following
    exact ⟨by rw [forgetNull_arrays, type, forgetNull_arrays], rest⟩

theorem toldApart_primitive (tag : Tag) : ToldApart (.primitive tag) := by
  refine .of_ne_array fun level e r s _ _ core same => ?_
  cases e with
  | primitive other =>
    obtain ⟨tags, rest⟩ := word_append_inj same
    exact ⟨congrArg primitive tags, rest⟩
  | array element => exact absurd rfl (core element)
  | object fields =>
    obtain ⟨t, opens⟩ := exists_format_object level fields
    rw [opens] at same
    exact absurd same (word_append_ne_brace tag _ _)
  | stray value => exact value.elim

theorem ToldApart.array {d : Descriptor} (h : ToldApart d) : ToldApart (.array d) := by
  intro level e m n r s hlevel names hr hs same
  rw [format_array_append] at same
  exact h level e (m + 1) n r s hlevel names hr hs same

/-- The lines of an object type end where its closing brace stands. -/
theorem map_forgetNull_of_lines {level : Int} (hlevel : 1 ≤ level)
    {as bs : List (Text × Descriptor)} (namesA : ∀ f ∈ as, f.1.OneLine)
    (h : ∀ f ∈ as, ToldApart f.2) (namesB : ∀ f ∈ bs, f.1.OneLine)
    (within : ∀ f ∈ bs, OneLineNames f.2) {r s : Text}
    (same : as.flatMap (line level) ++ (indent (level - 1) ++ ofChar '\x7d' :: r) =
      bs.flatMap (line level) ++ (indent (level - 1) ++ ofChar '\x7d' :: s)) :
    as.map (fun f => (f.1, forgetNull f.2)) = bs.map (fun f => (f.1, forgetNull f.2)) ∧ r = s := by
  have notBlank : ofChar '\x7d' ≠ ofChar ' ' := by decide
  induction as generalizing bs with
  | nil =>
    cases bs with
    | nil => exact ⟨rfl, (List.cons.inj (List.append_cancel_left same)).2⟩
    | cons b bs =>
      rw [List.flatMap_cons, List.append_assoc, line_append hlevel] at same
      exact absurd (List.cons.inj (List.append_cancel_left same)).1 notBlank
  | cons a as ih =>
    cases bs with
    | nil =>
      rw [List.flatMap_cons, List.append_assoc, line_append hlevel] at same
      exact absurd (List.cons.inj (List.append_cancel_left same)).1.symm notBlank
    | cons b bs =>
      rw [List.flatMap_cons, List.flatMap_cons, List.append_assoc, List.append_assoc,
        line_append hlevel, line_append hlevel] at same
      have ends (rest : Text) :
          ofChar ':' ∉ Text.firstLine (ofChar ';' :: ofChar '\n' :: rest) := by
        change ofChar ':' ∉ [ofChar ';']
        decide
      obtain ⟨nameA, namesA⟩ := List.forall_mem_cons.1 namesA
      obtain ⟨nameB, namesB⟩ := List.forall_mem_cons.1 namesB
      obtain ⟨withinB, within⟩ := List.forall_mem_cons.1 within
      obtain ⟨typeA, h⟩ := List.forall_mem_cons.1 h
      obtain ⟨name, types⟩ := name_append_inj nameA nameB
        (colon_notMem_firstLine_format _ _ (ends _)) (colon_notMem_firstLine_format _ _ (ends _))
        (List.append_cancel_left (List.append_cancel_left same))
      obtain ⟨type, rest⟩ := typeA (level + 1) b.2 0 0 _ _ (by omega) withinB
        (closed_semicolon _) (closed_semicolon _) types
      obtain ⟨others, following⟩ := ih namesA h namesB within
        (List.cons.inj (List.cons.inj rest).2).2
      refine ⟨?_, following⟩
      rw [List.map_cons, List.map_cons, name, others]
      exact congrArg (fun o => (b.1, o) :: _) type

theorem toldApart_object {fields : List (Text × Descriptor)} (names : ∀ f ∈ fields, f.1.OneLine)
    (h : ∀ f ∈ fields, ToldApart f.2) : ToldApart (.object fields) := by
  refine .of_ne_array fun level e r s hlevel namesE core same => ?_
  have noField : ofChar '\x7d' ≠ ofChar '\n' := by decide
  cases e with
  | primitive tag =>
    obtain ⟨t, opens⟩ := exists_format_object level fields
    rw [opens] at same
    exact absurd same.symm (word_append_ne_brace tag _ _)
  | array element => exact absurd rfl (core element)
  | object others =>
    cases fields with
    | nil =>
      cases others with
      | nil => exact ⟨rfl, List.append_cancel_left same⟩
      | cons b others =>
        rw [format_object_nil, format_object_cons] at same
        exact absurd (List.cons.inj (List.cons.inj same).2).1 noField
    | cons a fields =>
      cases others with
      | nil =>
        rw [format_object_nil, format_object_cons] at same
        exact absurd (List.cons.inj (List.cons.inj same).2).1.symm noField
      | cons b others =>
        simp only [format_object_cons, List.append_assoc, List.singleton_append] at same
        obtain ⟨same, rest⟩ := map_forgetNull_of_lines hlevel names h (fun f => namesE.name)
          (fun f => namesE.field) (List.append_cancel_left same)
        exact ⟨by rw [forgetNull_object, same, ← forgetNull_object], rest⟩
  | stray value => exact value.elim

/-- Types whose names stand on one line are told apart. -/
theorem toldApart_of_oneLineNames {d : Descriptor} (h : OneLineNames d) : ToldApart d := by
  induction d with
  | primitive tag => exact toldApart_primitive tag
  | array element ih => exact (ih h.element).array
  | object fields ih =>
    exact toldApart_object (fun f => h.name) fun f hf => ih f hf (h.field hf)

/-! ## Texts without null -/

/-- Null has the word of the unknown type. -/
theorem format_forgetNull (level : Int) (d : Descriptor) :
    format level (forgetNull d) = d.format level := by
  induction d generalizing level with
  | primitive tag => exact word_forgetNull tag
  | array element ih => rw [forgetNull, format_array, ih, format_array]
  | object fields ih =>
    rw [forgetNull_object, format_object, format_object, List.map_map]
    congr 1
    exact List.map_congr_left fun f hf => by simp only [Function.comp_apply, ih f hf]

/-- Types whose names stand on one line have one text exactly if they are the same, the order of
fields included, where null counts as unknown. The text is that of a type within a declaration, and
so is the declaration under any name. -/
theorem format_eq_iff_forgetNull {a b : Descriptor} (ha : OneLineNames a) (hb : OneLineNames b) :
    (∀ level : Int, 1 ≤ level → (a.format level = b.format level ↔ forgetNull a = forgetNull b)) ∧
      ∀ name, a.declare name = b.declare name ↔ forgetNull a = forgetNull b := by
  have formats (level : Int) (hlevel : 1 ≤ level) :
      a.format level = b.format level ↔ forgetNull a = forgetNull b := by
    constructor
    · intro same
      exact (toldApart_of_oneLineNames ha level b 0 0 [] [] hlevel hb closed_nil closed_nil
        (congrArg (· ++ []) same)).1
    · intro same
      rw [← format_forgetNull, same, format_forgetNull]
  refine ⟨formats, fun name => ?_⟩
  rw [declare_eq, declare_eq, ← formats 1 (by decide)]
  exact ⟨fun same => List.append_cancel_left (List.append_cancel_right same),
    fun same => by rw [same]⟩

/-- Names that look like braces do not hide what the fields are; only null and unknown have one
text. -/
theorem format_of_names_like_braces :
    let d (name : Text) (tag : Tag) : Descriptor :=
      .object [(Text.ofString "\x7d", .array (.primitive tag)),
        (name, .object [([], .primitive .string)])]
    let opening := Text.ofString "a: \x7b"
    let a := Text.ofString "a"
    let name := Text.ofString "Sample"
    (d opening .null).format 2 = (d opening .unknown).format 2 ∧
      (d opening .null).declare name ≠ (d a .null).declare name := by
  intro d opening a name
  have names (name : Text) (h : name.OneLine) (tag : Tag) : OneLineNames (d name tag) := by
    have inner : OneLineNames (.object [(([] : Text), (.primitive .string : Descriptor))]) :=
      .object (by decide) (List.forall_mem_singleton.2 (.primitive _))
    have closing : (Text.ofString "\x7d").OneLine := by decide
    refine .object ?_ ?_
    · exact List.forall_mem_cons.2 ⟨closing, List.forall_mem_singleton.2 h⟩
    · exact List.forall_mem_cons.2 ⟨.array (.primitive _), List.forall_mem_singleton.2 inner⟩
  have ofOpening := names opening (by decide)
  have ofA := names a (by decide)
  constructor
  · have apart := format_eq_iff_forgetNull (ofOpening .null) (ofOpening .unknown)
    exact (apart.1 2 (by decide)).2 rfl
  · have apart := format_eq_iff_forgetNull (ofOpening .null) (ofA .null)
    rw [Ne, apart.2 name]
    exact fun same => absurd (congrArg Descriptor.names same) (by decide)

end Descriptor

end SampleTypes
