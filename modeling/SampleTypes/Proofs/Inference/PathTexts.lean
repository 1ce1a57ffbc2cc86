import SampleTypes.Inference
import SampleTypes.Proofs.Number.Layout

/-!
# Paths are told apart by their texts

The text of a path sets its steps apart by three marks: a point before a name, unless the name comes
first, and brackets around an index. Where no name holds a mark, a name ends at the next mark and an
index at its bracket, so the text of a path can be taken apart in one way only. Two names have to be
excluded besides: the empty one, which would leave no trace as the first, and the one that is
written for a path without steps.

A message names the last name of a path and then the path itself. The name may hold any words, those
between the two as well; still the message tells where the name ends, because a longer name would
have to be the last one of a path whose last name it is not.

## Main definitions

* `Path.isMark` — the marks
* `Path.IsPlainName`, `Path.Plain` — names without marks, and paths of such names

## Main results

* `Path.formatSteps_inj`, `Path.format_inj` — plain paths are told apart by their texts
* `Unsupported.message_inj` — and by the messages about them, if these name one
-/

namespace SampleTypes

namespace Path

/-- What sets the steps of a path apart in its text. -/
def isMark (c : CodePoint) : Bool := c == ofChar '.' || c == ofChar '[' || c == ofChar ']'

/-- A text without marks. -/
def Unmarked (t : Text) : Prop := ∀ c ∈ t, isMark c = false

/-- A name that is not empty, holds no mark and is not what is written for the root. -/
structure IsPlainName (t : Text) : Prop where
  ne_nil : t ≠ []
  unmarked : Unmarked t
  ne_root : t ≠ Text.ofString "<root>"

/-- A path of plain names, and of any indices. -/
def Plain (path : Path) : Prop := ∀ t, Step.name t ∈ path → IsPlainName t

/-- Nothing, or a text that begins with a mark. -/
def Opens (t : Text) : Prop := ∀ c, t.head? = some c → isMark c = true

instance (t : Text) : Decidable (Unmarked t) := List.decidableBAll _ t

theorem isPlainName_iff (t : Text) :
    IsPlainName t ↔ t ≠ [] ∧ Unmarked t ∧ t ≠ Text.ofString "<root>" :=
  ⟨fun h => ⟨h.ne_nil, h.unmarked, h.ne_root⟩, fun h => ⟨h.1, h.2.1, h.2.2⟩⟩

instance (t : Text) : Decidable (IsPlainName t) := decidable_of_iff _ (isPlainName_iff t).symm

theorem plain_cons {step : Step} {path : Path} :
    Plain (step :: path) ↔ (∀ t, step = .name t → IsPlainName t) ∧ path.Plain := by
  constructor
  · intro h
    exact ⟨fun t named => h t (named ▸ List.mem_cons_self ..),
      fun t ht => h t (List.mem_cons_of_mem _ ht)⟩
  · rintro ⟨first, rest⟩ t ht
    rcases List.mem_cons.1 ht with named | ht
    · exact first t named.symm
    · exact rest t ht

/-! ## Texts up to a mark -/

theorem opens_nil : Opens [] := fun _ h => nomatch h

theorem opens_cons {c : CodePoint} (h : isMark c = true) (rest : Text) : Opens (c :: rest) := by
  rintro _ ⟨⟩
  exact h

theorem takeWhile_unmarked {t rest : Text} (ht : Unmarked t) (hrest : Opens rest) :
    (t ++ rest).takeWhile (!isMark ·) = t := by
  rw [List.takeWhile_append_of_pos fun c hc => by simp [ht c hc]]
  cases rest with
  | nil => simp
  | cons c rest => simp [hrest c rfl]

/-- A text without marks ends at the next mark. -/
theorem unmarked_append_inj {t u r s : Text} (ht : Unmarked t) (hu : Unmarked u) (hr : Opens r)
    (hs : Opens s) (h : t ++ r = u ++ s) : t = u ∧ r = s := by
  have same : t = u := by
    rw [← takeWhile_unmarked ht hr, h, takeWhile_unmarked hu hs]
  subst same
  exact ⟨rfl, List.append_cancel_left h⟩

theorem IsPlainName.append_ne_of_opens {t rest u : Text} (ht : IsPlainName t) (hu : Opens u) :
    t ++ rest ≠ u := by
  obtain ⟨c, t', rfl⟩ := List.exists_cons_of_ne_nil ht.ne_nil
  rintro rfl
  have mark := hu c rfl
  rw [ht.unmarked c (List.mem_cons_self ..)] at mark
  cases mark

/-! ## Steps -/

/-- What stands between the brackets of a step that has them. -/
def bracketed? : Step → Option Text
  | .index n => some (Text.ofInt n)
  | .truth b => some (Sample.bool b).quoted
  | .name _ => none

theorem formatStep_of_bracketed {step : Step} {t : Text} (h : bracketed? step = some t)
    (first : Bool) : formatStep first step = ofChar '[' :: (t ++ [ofChar ']']) := by
  cases step <;> cases h <;> rfl

theorem unmarked_of_bracketed {step : Step} {t : Text} (h : bracketed? step = some t) :
    Unmarked t := by
  cases step with
  | index n =>
    cases h
    intro c hc
    rcases Text.mem_ofInt hc with digit | rfl
    · have apart (d : Char) (hd : (ofChar d).isDigit = false) : (c == ofChar d) = false :=
        beq_false_of_ne (CodePoint.ne_of_isDigit digit hd)
      rw [isMark, apart '.' rfl, apart '[' rfl, apart ']' rfl]
      rfl
    · decide
  | truth b => cases h; cases b <;> decide
  | name t => cases h

theorem quoted_bool_ne_ofInt (b : Bool) (n : Int) : (Sample.bool b).quoted ≠ Text.ofInt n := by
  intro same
  -- A letter stands in the words for both truth values, and in no number.
  have letter : ofChar 'e' ∈ Text.ofInt n := by
    rw [← same]
    cases b <;> decide
  rcases Text.mem_ofInt letter with digit | minus
  · exact absurd digit (by decide)
  · exact absurd minus (by decide)

/-- Steps with brackets are told apart by what stands between them. -/
theorem bracketed?_inj {a b : Step} {t : Text} (ha : bracketed? a = some t)
    (hb : bracketed? b = some t) : a = b := by
  cases a with
  | index m =>
    cases ha
    cases b with
    | index n => rw [Text.ofInt_inj (Option.some.inj hb)]
    | truth b => exact absurd (Option.some.inj hb) (quoted_bool_ne_ofInt b m)
    | name u => cases hb
  | truth a =>
    cases ha
    cases b with
    | index n => exact absurd (Option.some.inj hb).symm (quoted_bool_ne_ofInt a n)
    | truth b =>
      have same : (Sample.bool b).quoted = (Sample.bool a).quoted := Option.some.inj hb
      cases a <;> cases b <;> first | rfl | exact absurd same (by decide)
    | name u => cases hb
  | name u => cases ha

/-- A step has brackets or is a name. -/
theorem step_cases (step : Step) : (∃ t, bracketed? step = some t) ∨ ∃ t, step = .name t := by
  cases step with
  | index n => exact .inl ⟨_, rfl⟩
  | truth b => exact .inl ⟨_, rfl⟩
  | name t => exact .inr ⟨t, rfl⟩

/-- A name, without the point before it if it comes first, does not begin like a step with
brackets. -/
theorem formatStep_name_append_ne {t u rest : Text} (ht : IsPlainName t) (first : Bool) :
    formatStep first (.name t) ++ rest ≠ ofChar '[' :: u := by
  cases first with
  | true => exact ht.append_ne_of_opens (opens_cons (by decide) u)
  | false => exact fun h => absurd (List.cons.inj h).1 (by decide)

/-- A step and what follows it are told apart, whether steps come first or behind others. -/
theorem formatStep_append_inj {a b : Step} {r s : Text} {first : Bool}
    (ha : ∀ t, a = .name t → IsPlainName t) (hb : ∀ t, b = .name t → IsPlainName t)
    (hr : Opens r) (hs : Opens s) (h : formatStep first a ++ r = formatStep first b ++ s) :
    a = b ∧ r = s := by
  have closing (rest : Text) : Opens (ofChar ']' :: rest) := opens_cons (by decide) rest
  rcases step_cases a with ⟨t, bracketsA⟩ | ⟨t, rfl⟩
  · rw [formatStep_of_bracketed bracketsA] at h
    rcases step_cases b with ⟨u, bracketsB⟩ | ⟨u, rfl⟩
    · rw [formatStep_of_bracketed bracketsB] at h
      simp only [List.cons_append, List.append_assoc, List.cons.injEq, true_and,
        List.nil_append] at h
      obtain ⟨rfl, rest⟩ := unmarked_append_inj (unmarked_of_bracketed bracketsA)
        (unmarked_of_bracketed bracketsB) (closing r) (closing s) h
      exact ⟨bracketed?_inj bracketsA bracketsB, (List.cons.inj rest).2⟩
    · exact absurd h.symm (formatStep_name_append_ne (hb u rfl) first)
  · rcases step_cases b with ⟨u, bracketsB⟩ | ⟨u, rfl⟩
    · rw [formatStep_of_bracketed bracketsB] at h
      exact absurd h (formatStep_name_append_ne (ha t rfl) first)
    · have texts : t ++ r = u ++ s := by
        cases first with
        | true => exact h
        | false => exact (List.cons.inj h).2
      obtain ⟨rfl, rest⟩ :=
        unmarked_append_inj (ha t rfl).unmarked (hb u rfl).unmarked hr hs texts
      exact ⟨rfl, rest⟩

/-! ## Paths -/

theorem opens_flatMap (path : Path) : Opens (path.flatMap (formatStep false)) := by
  cases path with
  | nil => exact opens_nil
  | cons step rest => cases step <;> exact opens_cons (by decide) _

theorem flatMap_formatStep_inj {p q : Path} (hp : p.Plain) (hq : q.Plain)
    (h : p.flatMap (formatStep false) = q.flatMap (formatStep false)) : p = q := by
  induction p generalizing q with
  | nil =>
    cases q with
    | nil => rfl
    | cons b q => cases b <;> cases h
  | cons a p ih =>
    cases q with
    | nil => cases a <;> cases h
    | cons b q =>
      rw [List.flatMap_cons, List.flatMap_cons] at h
      obtain ⟨plainA, plainP⟩ := plain_cons.1 hp
      obtain ⟨plainB, plainQ⟩ := plain_cons.1 hq
      obtain ⟨rfl, rest⟩ :=
        formatStep_append_inj plainA plainB (opens_flatMap p) (opens_flatMap q) h
      rw [ih plainP plainQ rest]

theorem formatSteps_cons (step : Step) (path : Path) :
    formatSteps (step :: path) = formatStep true step ++ path.flatMap (formatStep false) := rfl

theorem formatSteps_ne_nil {path : Path} (h : path.Plain) (ne : path ≠ []) :
    formatSteps path ≠ [] := by
  obtain ⟨step, rest, rfl⟩ := List.exists_cons_of_ne_nil ne
  rw [formatSteps_cons]
  rcases step_cases step with ⟨t, brackets⟩ | ⟨t, rfl⟩
  · rw [formatStep_of_bracketed brackets]
    exact List.cons_ne_nil _ _
  · exact fun nothing => (h t (List.mem_cons_self ..)).ne_nil (List.append_eq_nil_iff.1 nothing).1

theorem formatSteps_inj {p q : Path} (hp : p.Plain) (hq : q.Plain)
    (h : formatSteps p = formatSteps q) : p = q := by
  cases p with
  | nil =>
    by_contra ne
    exact formatSteps_ne_nil hq (Ne.symm ne) h.symm
  | cons a p =>
    cases q with
    | nil => exact absurd h (formatSteps_ne_nil hp (List.cons_ne_nil _ _))
    | cons b q =>
      rw [formatSteps_cons, formatSteps_cons] at h
      obtain ⟨plainA, plainP⟩ := plain_cons.1 hp
      obtain ⟨plainB, plainQ⟩ := plain_cons.1 hq
      obtain ⟨rfl, rest⟩ :=
        formatStep_append_inj plainA plainB (opens_flatMap p) (opens_flatMap q) h
      rw [flatMap_formatStep_inj plainP plainQ rest]

theorem formatSteps_ne_root {path : Path} (h : path.Plain) :
    formatSteps path ≠ Text.ofString "<root>" := by
  cases path with
  | nil => decide
  | cons step rest =>
    rw [formatSteps_cons]
    rcases step_cases step with ⟨t, brackets⟩ | ⟨t, rfl⟩
    · rw [formatStep_of_bracketed brackets]
      exact fun same => absurd (List.cons.inj same).1 (by decide)
    · intro same
      -- What is written for the root has no mark, so it would be the first name.
      have name := h t (List.mem_cons_self ..)
      have whole : t ++ rest.flatMap (formatStep false) = Text.ofString "<root>" ++ [] := same
      exact name.ne_root (unmarked_append_inj name.unmarked (by decide) (opens_flatMap rest)
        opens_nil whole).1

theorem format_nil : format [] = Text.ofString "<root>" := rfl

theorem format_of_ne_nil {path : Path} (h : path.Plain) (ne : path ≠ []) :
    path.format = formatSteps path :=
  if_neg (formatSteps_ne_nil h ne)

/-- Plain paths are told apart by their texts. -/
theorem format_inj {p q : Path} (hp : p.Plain) (hq : q.Plain) (h : p.format = q.format) :
    p = q := by
  by_cases nilP : p = []
  · by_cases nilQ : q = []
    · rw [nilP, nilQ]
    · rw [nilP, format_nil, format_of_ne_nil hq nilQ] at h
      exact absurd h.symm (formatSteps_ne_root hq)
  · by_cases nilQ : q = []
    · rw [nilQ, format_nil, format_of_ne_nil hp nilP] at h
      exact absurd h (formatSteps_ne_root hp)
    · rw [format_of_ne_nil hp nilP, format_of_ne_nil hq nilQ] at h
      exact formatSteps_inj hp hq h

/-- A name that is written like the root, and one with a mark in it, are not told apart so. -/
example :
    format [.name (Text.ofString "<root>")] = format [] ∧
      format [.name (Text.ofString "a.b")] =
        format [.name (Text.ofString "a"), .name (Text.ofString "b")] := by
  decide

/-! ## The last name -/

theorem nearestKey_cons (step : Step) (path : Path) :
    nearestKey (step :: path) = (nearestKey path <|> nearestKey [step]) := by
  simp [nearestKey, List.findSome?_append]

/-- A path with a text put before its own. -/
def lengthen (w : Text) : Path → Path
  | .name t :: rest => .name (w ++ t) :: rest
  | path => .name w :: path

theorem lengthen_of_bracketed {step : Step} {t : Text} (h : bracketed? step = some t) (w : Text)
    (rest : Path) : lengthen w (step :: rest) = .name w :: step :: rest := by
  cases step with
  | name _ => cases h
  | _ => rfl

theorem formatSteps_lengthen (w : Text) (path : Path) :
    formatSteps (lengthen w path) = w ++ formatSteps path := by
  cases path with
  | nil => rfl
  | cons step rest =>
    rcases step_cases step with ⟨t, brackets⟩ | ⟨t, rfl⟩
    · -- Brackets stand without a point wherever they come.
      rw [lengthen_of_bracketed brackets, formatSteps_cons, formatSteps_cons, List.flatMap_cons,
        formatStep_of_bracketed brackets, formatStep_of_bracketed brackets]
      rfl
    · exact List.append_assoc w t _

theorem Plain.lengthen {path : Path} (h : path.Plain) {w : Text} (hw : Unmarked w)
    (quote : ofChar '\x27' ∈ w) : (lengthen w path).Plain := by
  -- The apostrophe tells such a name from what is written for the root.
  have name {t : Text} (ht : Unmarked t) : IsPlainName (w ++ t) := by
    have inside : ofChar '\x27' ∈ w ++ t := List.mem_append_left t quote
    exact ⟨List.ne_nil_of_mem inside, List.forall_mem_append.2 ⟨hw, ht⟩,
      fun root => absurd (root ▸ inside) (by decide)⟩
  have before : ∀ t, Step.name w = .name t → IsPlainName t := by
    rintro _ ⟨⟩
    exact w.append_nil ▸ name (t := []) nofun
  cases path with
  | nil => exact plain_cons.2 ⟨before, h⟩
  | cons step rest =>
    rcases step_cases step with ⟨t, brackets⟩ | ⟨t, rfl⟩
    · rw [lengthen_of_bracketed brackets]
      exact plain_cons.2 ⟨before, h⟩
    · obtain ⟨first, others⟩ := plain_cons.1 h
      refine plain_cons.2 ⟨?_, others⟩
      rintro _ ⟨⟩
      exact name (first t rfl).unmarked

/-- The last name does not become shorter. -/
theorem nearestKey_lengthen {path : Path} {key : Text} (h : path.nearestKey = some key) (w : Text) :
    ∃ key', (lengthen w path).nearestKey = some key' ∧ key.length ≤ key'.length := by
  cases path with
  | nil => cases h
  | cons step rest =>
    rcases step_cases step with ⟨t, brackets⟩ | ⟨t, rfl⟩
    · rw [lengthen_of_bracketed brackets, nearestKey_cons, h]
      exact ⟨key, rfl, Nat.le_refl _⟩
    · rw [nearestKey_cons] at h
      rw [lengthen, nearestKey_cons]
      cases others : nearestKey rest with
      | some last =>
        rw [others] at h
        cases h
        exact ⟨key, rfl, Nat.le_refl _⟩
      | none =>
        rw [others] at h
        cases h
        exact ⟨w ++ key, rfl, by simp⟩

theorem mem_of_nearestKey {path : Path} {key : Text} (h : path.nearestKey = some key) :
    .name key ∈ path := by
  obtain ⟨step, mem, named⟩ := List.exists_of_findSome?_eq_some h
  cases step with
  | name t =>
    cases named
    exact List.mem_reverse.1 mem
  | _ => cases named

end Path

/-! ## Messages -/

namespace Unsupported

open SampleTypes.Path

/-- What a message says between the last name of a path and the path. -/
def betweenKeyAndPath : Text := Text.ofString "' at path "

/-- What it says before the last name. -/
def beforeKey : Text :=
  Text.ofString "Functions are not supported for type inference" ++ Text.ofString " (key '"

theorem message_found {path : Path} {key : Text} (h : path.nearestKey = some key) (n : Nature) :
    (found path n).message =
      beforeKey ++ (key ++ (betweenKeyAndPath ++ (path.format ++ Text.ofString ")."))) := by
  simp only [message, found, h, beforeKey, betweenKeyAndPath, List.append_assoc]

theorem message_found_of_none {path : Path} (h : path.nearestKey = none) (n : Nature) :
    (found path n).message =
      Text.ofString "Functions are not supported for type inference" ++ [ofChar '.'] := by
  simp only [message, found, h]

/-- What stands between name and path begins with an apostrophe and holds no other, so a text in
front of it is not moved past it in part. -/
theorem exists_of_between_append {r s t : Text} (left : r ≠ [])
    (h : betweenKeyAndPath ++ s = r ++ (betweenKeyAndPath ++ t)) :
    ∃ z, r = betweenKeyAndPath ++ z ∧ s = z ++ (betweenKeyAndPath ++ t) := by
  rcases List.append_eq_append_iff.1 h with ⟨z, rfl, rest⟩ | ⟨z, whole, rest⟩
  · exact ⟨z, rfl, rest⟩
  · cases z with
    | nil =>
      rw [List.append_nil] at whole
      rw [List.nil_append] at rest
      exact ⟨[], by rw [List.append_nil, whole], rest.symm⟩
    | cons c z =>
      obtain ⟨d, r, rfl⟩ := List.exists_cons_of_ne_nil left
      have apostrophe : ofChar '\x27' = c := (List.cons.inj rest).1
      have behind : c ∈ betweenKeyAndPath.tail := by
        rw [whole]
        simp
      rw [← apostrophe] at behind
      exact absurd behind (by decide)

/-- A longer name in place of the last one would not be the last of its path. -/
theorem eq_nil_of_longer_key {p q : Path} {key r : Text} (hp : p.Plain) (hq : q.Plain)
    (keyP : p.nearestKey = some key) (keyQ : q.nearestKey = some (key ++ r))
    (h : betweenKeyAndPath ++ p.format = r ++ (betweenKeyAndPath ++ q.format)) : r = [] := by
  by_contra left
  obtain ⟨z, rfl, texts⟩ := exists_of_between_append left h
  have name : IsPlainName (key ++ (betweenKeyAndPath ++ z)) := hq _ (mem_of_nearestKey keyQ)
  have unmarked : Unmarked (z ++ betweenKeyAndPath) := by
    intro c hc
    refine name.unmarked c ?_
    simp only [List.mem_append] at hc ⊢
    exact .inr hc.symm
  have quote : ofChar '\x27' ∈ z ++ betweenKeyAndPath := List.mem_append_right z (by decide)
  -- The path with the shorter name is the other one, with more in front of its first name.
  have same : p = lengthen (z ++ betweenKeyAndPath) q := by
    have neP : p ≠ [] := List.ne_nil_of_mem (mem_of_nearestKey keyP)
    have neQ : q ≠ [] := List.ne_nil_of_mem (mem_of_nearestKey keyQ)
    rw [format_of_ne_nil hp neP, format_of_ne_nil hq neQ] at texts
    refine formatSteps_inj hp (hq.lengthen unmarked quote) ?_
    rw [formatSteps_lengthen, texts, List.append_assoc]
  obtain ⟨key', named, long⟩ := nearestKey_lengthen keyQ (z ++ betweenKeyAndPath)
  rw [← same, keyP] at named
  cases named
  have longer : 0 < (betweenKeyAndPath ++ z).length := List.length_pos_of_ne_nil left
  rw [List.length_append] at long
  omega

/-- Plain paths are told apart by the messages about what was found there, if one of these names a
path. -/
theorem message_inj {p q : Path} {m n : Nature} (hp : p.Plain) (hq : q.Plain)
    (named : p.nearestKey ≠ none) (h : (found p m).message = (found q n).message) : p = q := by
  obtain ⟨key, keyP⟩ := Option.ne_none_iff_exists'.1 named
  rw [message_found keyP] at h
  cases keyQ : q.nearestKey with
  | none =>
    rw [message_found_of_none keyQ, beforeKey, List.append_assoc] at h
    exact absurd (List.cons.inj (List.append_cancel_left h)).1 (by decide)
  | some key' =>
    rw [message_found keyQ] at h
    have texts : key ++ (betweenKeyAndPath ++ p.format) =
        key' ++ (betweenKeyAndPath ++ q.format) := by
      refine (List.append_left_inj (Text.ofString ").")).1 ?_
      simpa only [List.append_assoc] using List.append_cancel_left h
    -- Both messages begin with the names, so one of the names continues the other.
    rcases List.append_eq_append_iff.1 texts with ⟨r, rfl, rest⟩ | ⟨r, rfl, rest⟩
    · rw [eq_nil_of_longer_key hp hq keyP keyQ rest, List.nil_append] at rest
      exact format_inj hp hq (List.append_cancel_left rest)
    · rw [eq_nil_of_longer_key hq hp keyQ keyP rest, List.nil_append] at rest
      exact format_inj hp hq (List.append_cancel_left rest.symm)

end Unsupported

end SampleTypes
