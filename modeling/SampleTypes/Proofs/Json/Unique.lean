import SampleTypes.Proofs.Json.Forms
import SampleTypes.Proofs.Number.Layout
import SampleTypes.Proofs.Text.Ascii

/-!
# What the compact form tells apart

The compact form says everything about a value but for its floating-point numbers, of which it says
the text. This holds of all values, also of those that are not read back: where the form of a value
ends can be seen from what follows it, so that two forms that begin one text are one form.

## Main definitions

* `Json.Alike` — the same value, up to floating-point numbers with the same text
* `Json.ToldApart` — a text from which, wherever it stands, it is known what it is a text of

## Main results

* `Json.toldApart_compact` — compact forms are told apart
* `Json.compact_eq_iff_alike` — values have one compact form exactly if they are alike
-/

namespace SampleTypes

namespace Json

/-- Two values are the same but for floating-point numbers that have the same text. -/
inductive Alike : Json → Json → Prop
  | refl (j : Json) : Alike j j
  | trans {i j k : Json} (hij : Alike i j) (hjk : Alike j k) : Alike i k
  | float {x y : Binary64} (h : numbers.write x = numbers.write y) : Alike (.float x) (.float y)
  | item (before after : List Json) {j k : Json} (h : Alike j k) :
      Alike (.array (before ++ j :: after)) (.array (before ++ k :: after))
  | member (before after : List (Text × Json)) (name : Text) {j k : Json} (h : Alike j k) :
      Alike (.object (before ++ (name, j) :: after)) (.object (before ++ (name, k) :: after))

theorem Alike.items {as bs : List Json} (h : List.Forall₂ Alike as bs) :
    Alike (.array as) (.array bs) :=
  forall₂_one_by_one (T := fun as bs => Alike (.array as) (.array bs)) (fun _ => .refl _) .trans
    .item h

theorem Alike.members {as bs : List (Text × Json)} (h : Entries.Related Alike as bs) :
    Alike (.object as) (.object bs) := by
  refine forall₂_one_by_one (T := fun as bs => Alike (.object as) (.object bs)) (fun _ => .refl _)
    .trans ?_ h
  rintro before after ⟨name, j⟩ ⟨_, k⟩ ⟨rfl, hjk⟩
  exact .member before after name hjk

theorem Alike.compact_eq {j k : Json} (h : Alike j k) : j.compact = k.compact := by
  induction h with
  | refl j => rfl
  | trans _ _ ihij ihjk => exact ihij.trans ihjk
  | float h => exact h
  | item before after _ ih => simp only [compact, compactItems_eq_map, List.map_append,
      List.map_cons, ih]
  | member before after name _ ih => simp only [compact, compactMembers_eq_map, List.map_append,
      List.map_cons, ih]

/-! ## Words and numbers -/

/-- What words and numbers are written with. -/
def inWord (c : CodePoint) : Bool :=
  c.isAlphanumeric || c == ofChar '-' || c == ofChar '+' || c == ofChar '.'

theorem inWord_of_isDigit {c : CodePoint} (h : c.isDigit = true) : inWord c = true := by
  simp [inWord, CodePoint.isAlphanumeric, h]

theorem Delimited.inWord_eq_false {c : CodePoint} {rest : Text} (h : Delimited (c :: rest)) :
    inWord c = false := by
  rcases h c rfl with blank | rfl | rfl | rfl
  · simp only [isBlank, Bool.or_eq_true, beq_iff_eq] at blank
    rcases blank with ((rfl | rfl) | rfl) | rfl <;> decide
  all_goals decide

/-- A word ends where the text goes on with a delimiter. -/
theorem takeWhile_inWord {t rest : Text} (h : ∀ c ∈ t, inWord c = true) (hrest : Delimited rest) :
    (t ++ rest).takeWhile inWord = t := by
  rw [List.takeWhile_append_of_pos h]
  cases rest with
  | nil => simp
  | cons c rest => simp [hrest.inWord_eq_false]

/-- Whether a text has a letter of `null`, `true` and `false` that no number is written with. -/
def isName (t : Text) : Bool := t.any fun c => c == ofChar 'u' || c == ofChar 's'

/-- Whether a text has more in it than digits and a sign. -/
def isMarked (t : Text) : Bool := t.any fun c => !c.isDigit && c != ofChar '-'

theorem isName_ofInt (n : Int) : isName (Text.ofInt n) = false := by
  rw [isName, List.any_eq_false]
  intro c hc
  rcases Text.mem_ofInt hc with digit | rfl
  · rintro name
    simp only [Bool.or_eq_true, beq_iff_eq] at name
    rcases name with rfl | rfl <;> revert digit <;> decide
  · decide

theorem isName_write (x : Binary64) : isName (numbers.write x) = false := by
  have digit (c : CodePoint) (h : c.isDigit = true) :
      ¬ (c == ofChar 'u' || c == ofChar 's') = true := by
    intro name
    simp only [Bool.or_eq_true, beq_iff_eq] at name
    rcases name with rfl | rfl <;> revert h <;> decide
  rw [isName, List.any_eq_false]
  exact Layout.forall_mem_write digit (List.any_eq_false.1 (by decide)) x

theorem isMarked_ofInt (n : Int) : isMarked (Text.ofInt n) = false := by
  rw [isMarked, List.any_eq_false]
  intro c hc
  rcases Text.mem_ofInt hc with digit | rfl
  · simp [digit]
  · decide

theorem isMarked_write (x : Binary64) : isMarked (numbers.write x) = true :=
  Layout.any_write (by decide) (by decide) (by decide) (by decide) (by decide) x

/-! ## The beginnings of values -/

/-- What the form of a text, an array or an object begins with. -/
def opening? : Json → Option CodePoint
  | .text _ => some (ofChar '\x22')
  | .array _ => some (ofChar '[')
  | .object _ => some (ofChar '\x7b')
  | _ => none

theorem inWord_of_mem_compact {j : Json} (h : j.opening? = none) :
    ∀ c ∈ j.compact, inWord c = true := by
  cases j with
  | null => exact List.all_eq_true.1 (by decide)
  | bool b => cases b <;> exact List.all_eq_true.1 (by decide)
  | int n =>
    intro c hc
    rcases Text.mem_ofInt hc with digit | rfl
    · exact inWord_of_isDigit digit
    · decide
  | float x =>
    exact Layout.forall_mem_write (fun c => inWord_of_isDigit) (List.all_eq_true.1 (by decide)) x
  | _ => cases h

theorem exists_compact_eq_cons (j : Json) :
    ∃ c t, j.compact = c :: t ∧ j.opening? = if inWord c then none else some c := by
  have word (h : j.opening? = none) (nonempty : j.compact ≠ []) :
      ∃ c t, j.compact = c :: t ∧ j.opening? = if inWord c then none else some c := by
    obtain ⟨c, t, hc⟩ := List.exists_cons_of_ne_nil nonempty
    have first := inWord_of_mem_compact h c (hc ▸ List.mem_cons_self ..)
    exact ⟨c, t, hc, by rw [h, if_pos first]⟩
  cases j with
  | null => exact word rfl (by decide)
  | bool b => exact word rfl (by cases b <;> decide)
  | int n =>
    apply word rfl
    cases n <;> simp [compact, Text.ofInt, Text.ofNat]
  | float x =>
    obtain ⟨c, hc, -⟩ := List.any_eq_true.1 (isMarked_write x)
    exact word rfl (List.ne_nil_of_mem hc)
  | _ => exact ⟨_, _, rfl, rfl⟩

theorem opening?_eq {j k : Json} {r s : Text} (h : j.compact ++ r = k.compact ++ s) :
    j.opening? = k.opening? := by
  obtain ⟨c, t, hj, openingJ⟩ := exists_compact_eq_cons j
  obtain ⟨d, u, hk, openingK⟩ := exists_compact_eq_cons k
  rw [hj, hk, List.cons_append, List.cons_append] at h
  obtain rfl := (List.cons.inj h).1
  rw [openingJ, openingK]

/-! ## Where forms end -/

/-- Of a text it is known, wherever it stands, what it is a text of and what follows it. -/
def ToldApart {α : Type} (text : α → Text) (R : α → α → Prop) (a : α) : Prop :=
  ∀ b r s, Delimited r → Delimited s → text a ++ r = text b ++ s → R a b ∧ r = s

theorem alike_of_compact_eq {j k : Json} (hj : j.opening? = none) (hk : k.opening? = none)
    (h : j.compact = k.compact) : Alike j k := by
  have name := congrArg isName h
  have marked := congrArg isMarked h
  cases j with
  | null =>
    cases k with
    | null => exact .refl _
    | bool b => cases b <;> exact absurd h (by decide)
    | int n => exact absurd (name.trans (isName_ofInt n)) (by decide)
    | float x => exact absurd (name.trans (isName_write x)) (by decide)
    | _ => cases hk
  | bool b =>
    have word : isName (truth b) = true := by cases b <;> decide
    cases k with
    | null => cases b <;> exact absurd h (by decide)
    | bool c =>
      cases b <;> cases c
      · exact .refl _
      · exact absurd h (by decide)
      · exact absurd h (by decide)
      · exact .refl _
    | int n => exact absurd (word.symm.trans (name.trans (isName_ofInt n))) (by decide)
    | float x => exact absurd (word.symm.trans (name.trans (isName_write x))) (by decide)
    | _ => cases hk
  | int n =>
    cases k with
    | null => exact absurd ((isName_ofInt n).symm.trans name) (by decide)
    | bool b => cases b <;> exact absurd ((isName_ofInt n).symm.trans name) (by decide)
    | int m =>
      obtain rfl := Text.ofInt_inj h
      exact .refl _
    | float x =>
      exact absurd ((isMarked_ofInt n).symm.trans (marked.trans (isMarked_write x))) (by decide)
    | _ => cases hk
  | float x =>
    cases k with
    | null => exact absurd ((isName_write x).symm.trans name) (by decide)
    | bool b => cases b <;> exact absurd ((isName_write x).symm.trans name) (by decide)
    | int n =>
      exact absurd ((isMarked_write x).symm.trans (marked.trans (isMarked_ofInt n))) (by decide)
    | float y => exact .float h
    | _ => cases hk
  | _ => cases hj

theorem toldApart_of_opening? {j : Json} (hj : j.opening? = none) : ToldApart compact Alike j := by
  intro k r s hr hs h
  have hk : k.opening? = none := (opening?_eq h).symm.trans hj
  -- A word goes as far as there is more of it, on both sides.
  have words := congrArg (List.takeWhile inWord) h
  rw [takeWhile_inWord (inWord_of_mem_compact hj) hr,
    takeWhile_inWord (inWord_of_mem_compact hk) hs] at words
  rw [words] at h
  exact ⟨alike_of_compact_eq hj hk words, List.append_cancel_left h⟩

theorem string_append_inj {t u r s : Text} (h : string false t ++ r = string false u ++ s) :
    t = u ∧ r = s := by
  have writable (t : Text) : Writable false t := fun h => absurd h (by decide)
  have read := stringAt_string (writable t) r
  rw [h, stringAt_string (writable u) s] at read
  cases read
  exact ⟨rfl, rfl⟩

/-- The compact form of a member of an object. -/
def compactMember (m : Text × Json) : Text := string false m.1 ++ ofChar ':' :: compact m.2

theorem toldApart_member {m : Text × Json} (h : ToldApart compact Alike m.2) :
    ToldApart compactMember (fun m n => m.1 = n.1 ∧ Alike m.2 n.2) m := by
  intro n r s hr hs same
  simp only [compactMember, List.append_assoc, List.cons_append] at same
  obtain ⟨name, following⟩ := string_append_inj same
  obtain ⟨alike, rest⟩ := h n.2 r s hr hs (List.cons.inj following).2
  exact ⟨⟨name, alike⟩, rest⟩

section Lists

variable {α : Type} {text : α → Text} {R : α → α → Prop} {close : CodePoint}

theorem delimited_parts (hclose : close = ofChar ']' ∨ close = ofChar '\x7d') (parts : List Text)
    (rest : Text) : Delimited (parts.flatMap ([ofChar ','] ++ ·) ++ close :: rest) := by
  cases parts with
  | nil => exact .cons (.inr hclose) rest
  | cons t parts => exact .cons (.inl rfl) _

/-- The parts after the first, each with a comma in front of it. -/
theorem forall₂_of_flatMap_eq (hclose : close = ofChar ']' ∨ close = ofChar '\x7d')
    {as : List α} (h : ∀ a ∈ as, ToldApart text R a) (bs : List α) {r s : Text}
    (same : (as.map text).flatMap ([ofChar ','] ++ ·) ++ close :: r =
      (bs.map text).flatMap ([ofChar ','] ++ ·) ++ close :: s) :
    List.Forall₂ R as bs ∧ r = s := by
  have noComma : ofChar ',' ≠ close := by rcases hclose with rfl | rfl <;> decide
  induction as generalizing bs with
  | nil =>
    cases bs with
    | nil => exact ⟨.nil, (List.cons.inj same).2⟩
    | cons b bs => exact absurd (List.cons.inj same).1.symm noComma
  | cons a as ih =>
    cases bs with
    | nil => exact absurd (List.cons.inj same).1 noComma
    | cons b bs =>
      simp only [List.map_cons, List.flatMap_cons, List.cons_append, List.append_assoc,
        List.cons.injEq, true_and] at same
      obtain ⟨hab, others⟩ := h a (List.mem_cons_self ..) b _ _ (delimited_parts hclose _ r)
        (delimited_parts hclose _ s) same
      obtain ⟨rest, following⟩ := ih (fun a' ha' => h a' (List.mem_cons_of_mem _ ha')) bs others
      exact ⟨.cons hab rest, following⟩

/-- Parts between commas and a closing bracket are told apart, if no part begins with that
bracket. -/
theorem forall₂_of_joinWith_eq (hclose : close = ofChar ']' ∨ close = ofChar '\x7d')
    (opens : ∀ a : α, ∃ c t, text a = c :: t ∧ c ≠ close) {as : List α}
    (h : ∀ a ∈ as, ToldApart text R a) (bs : List α) {r s : Text}
    (same : Text.joinWith [ofChar ','] (as.map text) ++ close :: r =
      Text.joinWith [ofChar ','] (bs.map text) ++ close :: s) :
    List.Forall₂ R as bs ∧ r = s := by
  cases as with
  | nil =>
    cases bs with
    | nil => exact ⟨.nil, (List.cons.inj same).2⟩
    | cons b bs =>
      obtain ⟨c, t, hc, other⟩ := opens b
      rw [List.map_cons, Text.joinWith_cons, hc] at same
      exact absurd (List.cons.inj same).1.symm other
  | cons a as =>
    cases bs with
    | nil =>
      obtain ⟨c, t, hc, other⟩ := opens a
      rw [List.map_cons, Text.joinWith_cons, hc] at same
      exact absurd (List.cons.inj same).1 other
    | cons b bs =>
      simp only [List.map_cons, Text.joinWith_cons, List.append_assoc] at same
      obtain ⟨hab, others⟩ := h a (List.mem_cons_self ..) b _ _ (delimited_parts hclose _ r)
        (delimited_parts hclose _ s) same
      obtain ⟨rest, following⟩ := forall₂_of_flatMap_eq hclose
        (fun a' ha' => h a' (List.mem_cons_of_mem _ ha')) bs others
      exact ⟨.cons hab rest, following⟩

end Lists

/-- Where a compact form ends, and what it is the form of up to floating-point numbers, is seen from
any text that goes on with a delimiter. -/
theorem toldApart_compact (j : Json) : ToldApart compact Alike j := by
  induction j with
  | null => exact toldApart_of_opening? rfl
  | bool b => exact toldApart_of_opening? rfl
  | int n => exact toldApart_of_opening? rfl
  | float x => exact toldApart_of_opening? rfl
  | text t =>
    intro k r s _ _ h
    have same := opening?_eq h
    cases k with
    | text u =>
      obtain ⟨rfl, rest⟩ := string_append_inj h
      exact ⟨.refl _, rest⟩
    | _ => exact absurd same (by simp only [opening?]; decide)
  | array items ih =>
    intro k r s _ _ h
    have same := opening?_eq h
    cases k with
    | array others =>
      have opens (j : Json) : ∃ c t, compact j = c :: t ∧ c ≠ ofChar ']' := by
        obtain ⟨c, t, hc, begins⟩ := exists_compact_eq_cons j
        refine ⟨c, t, hc, ?_⟩
        rintro rfl
        cases j <;> exact absurd begins (by simp only [opening?]; decide)
      simp only [compact, compactItems_eq_map, List.cons_append, List.append_assoc,
        List.nil_append, List.cons.injEq, true_and] at h
      obtain ⟨alike, rest⟩ := forall₂_of_joinWith_eq (.inl rfl) opens ih others h
      exact ⟨.items alike, rest⟩
    | _ => exact absurd same (by simp only [opening?]; decide)
  | object members ih =>
    intro k r s _ _ h
    have same := opening?_eq h
    cases k with
    | object others =>
      have opens (m : Text × Json) : ∃ c t, compactMember m = c :: t ∧ c ≠ ofChar '\x7d' :=
        ⟨_, _, rfl, by decide⟩
      simp only [compact, compactMembers_eq_map, List.cons_append, List.append_assoc,
        List.nil_append, List.cons.injEq, true_and] at h
      obtain ⟨alike, rest⟩ := forall₂_of_joinWith_eq (.inr rfl) opens
        (fun m hm => toldApart_member (ih m hm)) others h
      exact ⟨.members alike, rest⟩
    | _ => exact absurd same (by simp only [opening?]; decide)

/-- Values have one compact form exactly if they are alike. -/
theorem compact_eq_iff_alike {j k : Json} : j.compact = k.compact ↔ Alike j k := by
  refine ⟨fun h => ?_, Alike.compact_eq⟩
  exact (toldApart_compact j k [] [] .nil .nil (by rw [h])).1

end Json

end SampleTypes
