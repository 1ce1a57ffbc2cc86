import SampleTypes.Json.Reader

/-!
# The texts of JSON values

Which texts spell a value is said here without the reader: an array is its items between brackets,
with commas between them; blanks may stand around every value. Only words, numbers and strings are
left to the scanners of the reader. Whatever a text spells is then read, in any place where a value
may stand and with fuel for twice its length.

## Main definitions

* `Json.SpellsScalar`, `Json.SpellsText` — words and numbers, and strings
* `Json.Spelled` — the texts of a value
* `Json.ReadsAs` — what the reader makes of a text, wherever it stands

## Main results

* `Json.Spelled.readsAs` — what a text spells is read
* `Json.Spelled.read_eq` — a document holds the value that it spells
-/

namespace SampleTypes.Json

/-- A text of blanks only. -/
def Blanks (t : Text) : Prop := ∀ c ∈ t, isBlank c = true

/-- What may follow a value: nothing, a blank, a comma or a closing bracket. -/
def Delimited (rest : Text) : Prop :=
  ∀ c, rest.head? = some c →
    isBlank c = true ∨ c = ofChar ',' ∨ c = ofChar ']' ∨ c = ofChar '\x7d'

/-- A text that is read as a word or a number wherever it stands. -/
structure SpellsScalar (j : Json) (t : Text) : Prop where
  opens : ∃ c rest, t = c :: rest ∧ isBlank c = false ∧ c ≠ ofChar '\x22' ∧ c ≠ ofChar '[' ∧
    c ≠ ofChar '\x7b'
  reads : ∀ rest, Delimited rest → scalar (t ++ rest) = .ok (j, rest)

/-- A text in quotation marks that is read as a string wherever it stands. -/
structure SpellsText (s t : Text) : Prop where
  opens : ∃ rest, t = ofChar '\x22' :: rest
  reads : ∀ rest, stringAt (t ++ rest) = .ok (s, rest)

/-- A member of an object as it is spelled: blanks, the name, blanks, a colon and the value. -/
structure SpelledMember where
  before : Text
  name : Text
  nameText : Text
  between : Text
  value : Json
  valueText : Text

/-- The text of a member. -/
def SpelledMember.text (m : SpelledMember) : Text :=
  m.before ++ (m.nameText ++ (m.between ++ ofChar ':' :: m.valueText))

/-- The name and the value of a member. -/
def SpelledMember.entry (m : SpelledMember) : Text × Json := (m.name, m.value)

/-- The texts of a value. Blanks may stand around every value and every name. -/
inductive Spelled : Json → Text → Prop
  | scalar {j : Json} {t : Text} (h : SpellsScalar j t) : Spelled j t
  | text {s t : Text} (h : SpellsText s t) : Spelled (.text s) t
  | emptyArray {t : Text} (blanks : Blanks t) :
      Spelled (.array []) (ofChar '[' :: (t ++ [ofChar ']']))
  | array {parts : List (Json × Text)} (nonempty : parts ≠ [])
      (h : ∀ p ∈ parts, Spelled p.1 p.2) :
      Spelled (.array (parts.map Prod.fst))
        (ofChar '[' :: (Text.joinWith [ofChar ','] (parts.map Prod.snd) ++ [ofChar ']']))
  | emptyObject {t : Text} (blanks : Blanks t) :
      Spelled (.object []) (ofChar '\x7b' :: (t ++ [ofChar '\x7d']))
  | object {parts : List SpelledMember} (nonempty : parts ≠ [])
      (blanks : ∀ m ∈ parts, Blanks m.before ∧ Blanks m.between)
      (names : ∀ m ∈ parts, SpellsText m.name m.nameText)
      (h : ∀ m ∈ parts, Spelled m.value m.valueText) :
      Spelled (.object (Entries.ofPairs (parts.map SpelledMember.entry)))
        (ofChar '\x7b' ::
          (Text.joinWith [ofChar ','] (parts.map SpelledMember.text) ++ [ofChar '\x7d']))
  | padded {j : Json} {before t after : Text} (h : Spelled j t) (hb : Blanks before)
      (ha : Blanks after) : Spelled j (before ++ (t ++ after))

/-! ## Blanks -/

theorem skipBlanks_append {b : Text} (hb : Blanks b) (t : Text) :
    skipBlanks (b ++ t) = skipBlanks t :=
  List.dropWhile_append_of_pos hb

theorem skipBlanks_cons {c : CodePoint} (hc : isBlank c = false) (t : Text) :
    skipBlanks (c :: t) = c :: t := by
  rw [skipBlanks, List.dropWhile_cons_of_neg (by simp [hc])]

theorem skipBlanks_append_cons {b : Text} (hb : Blanks b) {c : CodePoint}
    (hc : isBlank c = false) (t : Text) : skipBlanks (b ++ c :: t) = c :: t := by
  rw [skipBlanks_append hb, skipBlanks_cons hc]

theorem Delimited.append {b rest : Text} (hb : Blanks b) (h : Delimited rest) :
    Delimited (b ++ rest) := by
  intro c hc
  cases b with
  | nil => exact h c hc
  | cons d b =>
    obtain rfl : d = c := by simpa using hc
    exact Or.inl (hb d (List.mem_cons_self ..))

theorem Delimited.cons {c : CodePoint}
    (hc : c = ofChar ',' ∨ c = ofChar ']' ∨ c = ofChar '\x7d') (rest : Text) :
    Delimited (c :: rest) := by
  intro d hd
  obtain rfl : c = d := by simpa using hd
  exact Or.inr hc

theorem Delimited.nil : Delimited [] := by
  intro c hc
  simp at hc

/-! ## What begins no value -/

/-- A word begins with one of five letters or, for negative infinity, with the sign. -/
theorem word_eq_none {c : CodePoint} (sign : c ≠ ofChar '-')
    (letter : ("ntfNI".toList.all fun d => c != ofChar d) = true) (rest : Text) :
    word? (c :: rest) = none := by
  rw [word?, List.findSome?_eq_none_iff]
  have other : ∀ w ∈ words, ∃ d ∈ "-ntfNI".toList, ∃ v, w.1 = ofChar d :: v := by
    simp [words, Text.ofString]
  intro w hw
  obtain ⟨d, hd, v, hv⟩ := other w hw
  have differs : ofChar d ≠ c := by
    simp at hd letter
    grind
  simp [hv, Text.after?, differs]

/-- Words begin with one of five letters, and numbers with a sign or a digit. -/
theorem scalar_eq_error {c : CodePoint} (digit : c.isDigit = false) (sign : c ≠ ofChar '-')
    (letter : ("ntfNI".toList.all fun d => c != ofChar d) = true) (rest : Text) :
    scalar (c :: rest) = .error (.problem .value (c :: rest)) := by
  have noDigits : takeWhole (c :: rest) = ([], c :: rest) := by
    have notZero : c ≠ ofChar '0' := by rintro rfl; revert digit; decide
    simp [takeWhole, notZero, digit]
  have noNumeral : numeral? (c :: rest) = none := by
    simp only [numeral?, if_neg sign, noDigits, ↓reduceIte]
  rw [scalar, word_eq_none sign letter, noNumeral]

theorem value_nil (fuel : Nat) : value fuel [] = .error (.problem .value []) := by
  cases fuel <;> rfl

theorem value_cons (fuel : Nat) {c : CodePoint} (hq : c ≠ ofChar '\x22') (ha : c ≠ ofChar '[')
    (ho : c ≠ ofChar '\x7b') (rest : Text) : value (fuel + 1) (c :: rest) = scalar (c :: rest) := by
  rw [value.eq_def]
  simp only [if_neg hq, if_neg ha, if_neg ho]

theorem value_closing (fuel : Nat) (rest : Text) :
    value fuel (ofChar ']' :: rest) = .error (.problem .value (ofChar ']' :: rest)) := by
  cases fuel with
  | zero => rfl
  | succ fuel =>
    rw [value_cons fuel (by decide) (by decide) (by decide),
      scalar_eq_error (by decide) (by decide) (by decide)]

theorem value_byteOrderMark (fuel : Nat) (rest : Text) :
    value fuel (ofChar '\uFEFF' :: rest) = .error (.problem .value (ofChar '\uFEFF' :: rest)) := by
  cases fuel with
  | zero => rfl
  | succ fuel =>
    rw [value_cons fuel (by decide) (by decide) (by decide),
      scalar_eq_error (by decide) (by decide) (by decide)]

/-! ## Steps of the reader -/

theorem items_last {fuel : Nat} {before : List Json} {t after rest : Text} {j : Json}
    (hvalue : value fuel t = .ok (j, after)) (hafter : skipBlanks after = ofChar ']' :: rest) :
    items (fuel + 1) before t = .ok (.array (before.reverse ++ [j]), rest) := by
  rw [items.eq_def]
  simp [hvalue, hafter, bind, Except.bind, pure, Except.pure]

theorem items_more {fuel : Nat} {before : List Json} {t after rest : Text} {j : Json}
    (hvalue : value fuel t = .ok (j, after)) (hafter : skipBlanks after = ofChar ',' :: rest) :
    items (fuel + 1) before t = items fuel (j :: before) (skipBlanks rest) := by
  rw [items.eq_def]
  simp only [hvalue, hafter, bind, Except.bind, ↓reduceIte]
  rw [if_neg (by decide)]

theorem value_text {fuel : Nat} {t s rest : Text}
    (h : stringAt (ofChar '\x22' :: t) = .ok (s, rest)) :
    value (fuel + 1) (ofChar '\x22' :: t) = .ok (.text s, rest) := by
  rw [value.eq_def]
  simp only [↓reduceIte, h, Except.map]

theorem value_emptyArray {fuel : Nat} {t rest : Text}
    (ht : skipBlanks t = ofChar ']' :: rest) :
    value (fuel + 1) (ofChar '[' :: t) = .ok (.array [], rest) := by
  rw [value.eq_def]
  simp only [ht, ↓reduceIte]
  rw [if_neg (by decide)]

theorem value_array {fuel : Nat} {t tail : Text} {c : CodePoint}
    (ht : skipBlanks t = c :: tail) (hc : c ≠ ofChar ']') :
    value (fuel + 1) (ofChar '[' :: t) = items fuel [] (c :: tail) := by
  rw [value.eq_def]
  simp only [ht, if_neg hc, ↓reduceIte]
  rw [if_neg (by decide)]

/-- A member is read: its name, the colon and its value, with what is left after it. -/
def ReadsMember (fuel : Nat) (t : Text) (entry : Text × Json) (after : Text) : Prop :=
  (∃ rest, t = ofChar '\x22' :: rest) ∧ ∃ afterName afterColon,
    stringAt t = .ok (entry.1, afterName) ∧
    skipBlanks afterName = ofChar ':' :: afterColon ∧
    value fuel (skipBlanks afterColon) = .ok (entry.2, after)

theorem members_last {fuel : Nat} {before : List (Text × Json)} {t after rest : Text}
    {entry : Text × Json} (hmember : ReadsMember fuel t entry after)
    (hafter : skipBlanks after = ofChar '\x7d' :: rest) :
    members (fuel + 1) before t =
      .ok (.object (Entries.ofPairs (before.reverse ++ [entry])), rest) := by
  obtain ⟨⟨_, rfl⟩, _, _, hname, hcolon, hvalue⟩ := hmember
  rw [members.eq_def]
  simp [expect, hname, hcolon, hvalue, hafter, bind, Except.bind, pure, Except.pure]

theorem members_more {fuel : Nat} {before : List (Text × Json)} {t after rest : Text}
    {entry : Text × Json} (hmember : ReadsMember fuel t entry after)
    (hafter : skipBlanks after = ofChar ',' :: rest) :
    members (fuel + 1) before t = members fuel (entry :: before) (skipBlanks rest) := by
  obtain ⟨⟨_, rfl⟩, _, _, hname, hcolon, hvalue⟩ := hmember
  rw [members.eq_def]
  simp only [expect, hname, hcolon, hvalue, hafter, bind, Except.bind, ↓reduceIte]
  rw [if_neg (by decide)]

theorem value_emptyObject {fuel : Nat} {t rest : Text}
    (ht : skipBlanks t = ofChar '\x7d' :: rest) :
    value (fuel + 1) (ofChar '\x7b' :: t) = .ok (.object [], rest) := by
  rw [value.eq_def]
  simp only [ht, ↓reduceIte]
  rw [if_neg (by decide), if_neg (by decide)]

theorem value_object {fuel : Nat} {t tail : Text} {c : CodePoint}
    (ht : skipBlanks t = c :: tail) (hc : c ≠ ofChar '\x7d') :
    value (fuel + 1) (ofChar '\x7b' :: t) = members fuel [] (c :: tail) := by
  rw [value.eq_def]
  simp only [ht, if_neg hc, ↓reduceIte]
  rw [if_neg (by decide), if_neg (by decide)]

/-! ## Reading what is spelled -/

/-- With fuel for the text, the reader gets the value and leaves what follows, up to blanks. -/
def ReadsAs (t : Text) (j : Json) : Prop :=
  ∀ fuel rest, 2 * t.length ≤ fuel → Delimited rest →
    ∃ after, value fuel (skipBlanks (t ++ rest)) = .ok (j, after) ∧
      skipBlanks after = skipBlanks rest

/-- Fuel for the parts of a list is fuel for its first part and for the parts after it. -/
theorem items_joinWith {parts : List (Json × Text)} (nonempty : parts ≠ [])
    (h : ∀ p ∈ parts, ReadsAs p.2 p.1) (fuel : Nat) (before : List Json) (rest : Text)
    (enough : 2 * (Text.joinWith [ofChar ','] (parts.map Prod.snd)).length < fuel) :
    items fuel before (skipBlanks
      (Text.joinWith [ofChar ','] (parts.map Prod.snd) ++ ofChar ']' :: rest)) =
        .ok (.array (before.reverse ++ parts.map Prod.fst), rest) := by
  -- The items that were read are kept reversed, and one unit of fuel is spent on each part.
  induction parts generalizing fuel before with
  | nil => exact absurd rfl nonempty
  | cons p parts ih =>
    obtain ⟨fuel, rfl⟩ : ∃ f, fuel = f + 1 := ⟨fuel - 1, by omega⟩
    have hp := h p (List.mem_cons_self ..)
    cases parts with
    | nil =>
      simp only [List.map_cons, List.map_nil, Text.joinWith] at enough ⊢
      obtain ⟨after, hvalue, hafter⟩ := hp fuel (ofChar ']' :: rest) (by omega)
        (Delimited.cons (by simp) rest)
      exact items_last hvalue hafter
    | cons q parts =>
      simp only [List.map_cons, Text.joinWith, List.length_append, List.length_cons,
        List.append_assoc, List.nil_append, List.cons_append] at enough ih ⊢
      obtain ⟨after, hvalue, hafter⟩ := hp fuel (ofChar ',' ::
        (Text.joinWith [ofChar ','] (q.2 :: parts.map Prod.snd) ++ ofChar ']' :: rest))
        (by omega) (Delimited.cons (by simp) _)
      rw [items_more hvalue hafter, ih (by simp) (fun r hr => h r (List.mem_cons_of_mem _ hr))
        fuel (p.1 :: before) (by omega)]
      simp

theorem SpelledMember.readsMember {m : SpelledMember} (blanks : Blanks m.before ∧ Blanks m.between)
    (name : SpellsText m.name m.nameText) (h : ReadsAs m.valueText m.value) (fuel : Nat)
    (rest : Text) (enough : 2 * m.text.length ≤ fuel) (hrest : Delimited rest) :
    ∃ after, ReadsMember fuel (skipBlanks (m.text ++ rest)) m.entry after ∧
      skipBlanks after = skipBlanks rest := by
  obtain ⟨tail, htail⟩ := name.opens
  have fits : 2 * m.valueText.length ≤ fuel := by
    simp only [text, List.length_append, List.length_cons] at enough
    omega
  -- The value is read first, because what it leaves is what the member leaves.
  obtain ⟨after, hvalue, hafter⟩ := h fuel rest fits hrest
  have opened : skipBlanks (m.text ++ rest) =
      m.nameText ++ (m.between ++ ofChar ':' :: (m.valueText ++ rest)) := by
    simp only [text, List.append_assoc, List.cons_append]
    rw [skipBlanks_append blanks.1, htail]
    exact skipBlanks_cons (by decide) _
  refine ⟨after, ?_, hafter⟩
  rw [opened]
  refine ⟨⟨_, by rw [htail]; rfl⟩, _, _, name.reads _, ?_, hvalue⟩
  exact skipBlanks_append_cons blanks.2 (by decide) _

theorem members_joinWith {parts : List SpelledMember} (nonempty : parts ≠ [])
    (blanks : ∀ m ∈ parts, Blanks m.before ∧ Blanks m.between)
    (names : ∀ m ∈ parts, SpellsText m.name m.nameText)
    (h : ∀ m ∈ parts, ReadsAs m.valueText m.value) (fuel : Nat) (before : List (Text × Json))
    (rest : Text)
    (enough : 2 * (Text.joinWith [ofChar ','] (parts.map SpelledMember.text)).length < fuel) :
    members fuel before (skipBlanks
      (Text.joinWith [ofChar ','] (parts.map SpelledMember.text) ++ ofChar '\x7d' :: rest)) =
        .ok (.object (Entries.ofPairs (before.reverse ++ parts.map SpelledMember.entry)),
          rest) := by
  induction parts generalizing fuel before with
  | nil => exact absurd rfl nonempty
  | cons m parts ih =>
    obtain ⟨fuel, rfl⟩ : ∃ f, fuel = f + 1 := ⟨fuel - 1, by omega⟩
    have hm := SpelledMember.readsMember (blanks m (List.mem_cons_self ..))
      (names m (List.mem_cons_self ..)) (h m (List.mem_cons_self ..)) fuel
    cases parts with
    | nil =>
      simp only [List.map_cons, List.map_nil, Text.joinWith] at enough ⊢
      obtain ⟨after, hmember, hafter⟩ := hm (ofChar '\x7d' :: rest) (by omega)
        (Delimited.cons (by simp) rest)
      exact members_last hmember hafter
    | cons n parts =>
      simp only [List.map_cons, Text.joinWith, List.length_append, List.length_cons,
        List.append_assoc, List.nil_append, List.cons_append] at enough ih ⊢
      obtain ⟨after, hmember, hafter⟩ := hm (ofChar ',' ::
        (Text.joinWith [ofChar ','] (n.text :: parts.map SpelledMember.text)
          ++ ofChar '\x7d' :: rest)) (by omega) (Delimited.cons (by simp) _)
      rw [members_more hmember hafter, ih (by simp)
        (fun r hr => blanks r (List.mem_cons_of_mem _ hr))
        (fun r hr => names r (List.mem_cons_of_mem _ hr))
        (fun r hr => h r (List.mem_cons_of_mem _ hr)) fuel (m.entry :: before) (by omega)]
      simp

/-- The reader of items has begun with a part that is no closing bracket. -/
theorem ReadsAs.opens {t : Text} {j : Json} (h : ReadsAs t j) {rest : Text}
    (hrest : Delimited rest) :
    ∃ c tail, skipBlanks (t ++ rest) = c :: tail ∧ c ≠ ofChar ']' := by
  obtain ⟨after, hvalue, -⟩ := h (2 * t.length) rest (Nat.le_refl _) hrest
  cases hskip : skipBlanks (t ++ rest) with
  | nil =>
    rw [hskip, value_nil] at hvalue
    cases hvalue
  | cons c tail =>
    refine ⟨c, tail, rfl, ?_⟩
    rintro rfl
    rw [hskip, value_closing] at hvalue
    cases hvalue

theorem opens_joinWith {parts : List (Json × Text)} (nonempty : parts ≠ [])
    (h : ∀ p ∈ parts, ReadsAs p.2 p.1) (rest : Text) :
    ∃ c tail, skipBlanks (Text.joinWith [ofChar ','] (parts.map Prod.snd) ++ ofChar ']' :: rest) =
      c :: tail ∧ c ≠ ofChar ']' := by
  match parts, nonempty with
  | [p], _ => exact (h p (List.mem_cons_self ..)).opens (Delimited.cons (by simp) rest)
  | p :: q :: parts, _ =>
    simp only [List.map_cons, Text.joinWith, List.append_assoc, List.singleton_append]
    exact (h p (List.mem_cons_self ..)).opens (Delimited.cons (by simp) _)

theorem opens_joinWith_members {parts : List SpelledMember} (nonempty : parts ≠ [])
    (blanks : ∀ m ∈ parts, Blanks m.before ∧ Blanks m.between)
    (names : ∀ m ∈ parts, SpellsText m.name m.nameText) (rest : Text) :
    ∃ tail, skipBlanks (Text.joinWith [ofChar ','] (parts.map SpelledMember.text) ++ rest) =
      ofChar '\x22' :: tail := by
  have opened (m : SpelledMember) (hm : m ∈ parts) (rest : Text) :
      ∃ tail, skipBlanks (m.text ++ rest) = ofChar '\x22' :: tail := by
    obtain ⟨tail, htail⟩ := (names m hm).opens
    rw [SpelledMember.text, List.append_assoc, skipBlanks_append (blanks m hm).1, htail]
    exact ⟨_, skipBlanks_cons (by decide) _⟩
  match parts, nonempty, opened with
  | [m], _, opened => exact opened m (List.mem_cons_self ..) rest
  | m :: n :: parts, _, opened =>
    simp only [List.map_cons, Text.joinWith, List.append_assoc, List.singleton_append]
    exact opened m (List.mem_cons_self ..) _

/-- A text that is more than blanks is read if the reader takes it where a value begins. -/
theorem ReadsAs.of_value {t : Text} {j : Json} (nonempty : t ≠ [])
    (h : ∀ fuel rest, 2 * t.length ≤ fuel + 1 → Delimited rest →
      value (fuel + 1) (skipBlanks (t ++ rest)) = .ok (j, rest)) : ReadsAs t j := by
  intro fuel rest enough hrest
  have positive := List.length_pos_iff.2 nonempty
  obtain ⟨fuel, rfl⟩ : ∃ f, fuel = f + 1 := ⟨fuel - 1, by omega⟩
  exact ⟨rest, h fuel rest enough hrest, rfl⟩

/-- Blanks around a text are skipped, those after it together with what follows. -/
theorem ReadsAs.padded {before t after : Text} {j : Json} (h : ReadsAs t j) (hb : Blanks before)
    (ha : Blanks after) : ReadsAs (before ++ (t ++ after)) j := by
  intro fuel rest enough hrest
  simp only [List.length_append] at enough
  obtain ⟨left, hvalue, hleft⟩ := h fuel (after ++ rest) (by omega) (Delimited.append ha hrest)
  refine ⟨left, ?_, hleft.trans (skipBlanks_append ha rest)⟩
  rw [List.append_assoc, skipBlanks_append hb, List.append_assoc]
  exact hvalue

/-- What a text spells is read, whatever value it is. -/
theorem Spelled.readsAs {j : Json} {t : Text} (h : Spelled j t) : ReadsAs t j := by
  -- By induction on the spelling: the parts of an array or object are read by hypothesis.
  induction h with
  | scalar h =>
    obtain ⟨c, tail, rfl, blank, quote, bracket, brace⟩ := h.opens
    apply ReadsAs.of_value
    · simp
    · intro fuel rest _ hrest
      rw [List.cons_append, skipBlanks_cons blank, value_cons fuel quote bracket brace,
        ← List.cons_append, h.reads rest hrest]
  | text h =>
    obtain ⟨tail, rfl⟩ := h.opens
    apply ReadsAs.of_value
    · simp
    · intro fuel rest _ _
      have hread := h.reads rest
      rw [List.cons_append] at hread ⊢
      rw [skipBlanks_cons (by decide), value_text hread]
  | @emptyArray t blanks =>
    apply ReadsAs.of_value
    · simp
    · intro fuel rest _ _
      rw [List.cons_append, skipBlanks_cons (by decide), List.append_assoc, List.singleton_append,
        value_emptyArray (skipBlanks_append_cons blanks (by decide) rest)]
  | @array parts nonempty _ ih =>
    apply ReadsAs.of_value
    · simp
    · intro fuel rest enough _
      simp only [List.length_cons, List.length_append, List.length_nil] at enough
      obtain ⟨c, tail, htail, hc⟩ := opens_joinWith nonempty ih rest
      rw [List.cons_append, List.append_assoc, List.singleton_append, skipBlanks_cons (by decide),
        value_array htail hc, ← htail, items_joinWith nonempty ih fuel [] rest (by omega)]
      rfl
  | @emptyObject t blanks =>
    apply ReadsAs.of_value
    · simp
    · intro fuel rest _ _
      rw [List.cons_append, skipBlanks_cons (by decide), List.append_assoc, List.singleton_append,
        value_emptyObject (skipBlanks_append_cons blanks (by decide) rest)]
  | @object parts nonempty blanks names _ ih =>
    apply ReadsAs.of_value
    · simp
    · intro fuel rest enough _
      simp only [List.length_cons, List.length_append, List.length_nil] at enough
      obtain ⟨tail, htail⟩ :=
        opens_joinWith_members nonempty blanks names (ofChar '\x7d' :: rest)
      rw [List.cons_append, List.append_assoc, List.singleton_append, skipBlanks_cons (by decide),
        value_object htail (by decide), ← htail,
        members_joinWith nonempty blanks names ih fuel [] rest (by omega)]
      rfl
  | padded _ hb ha ih => exact ih.padded hb ha

/-- A document that spells a value holds that value. -/
theorem Spelled.whole_eq {j : Json} {t : Text} (h : Spelled j t) : whole t = .ok j := by
  obtain ⟨after, hvalue, hafter⟩ := h.readsAs (2 * t.length + 1) [] (by omega) Delimited.nil
  rw [List.append_nil] at hvalue
  simp only [whole, hvalue, bind, Except.bind, hafter]
  rfl

theorem Spelled.read_eq {j : Json} {t : Text} (h : Spelled j t) : read t = .ok j := by
  -- A byte order mark is no blank and begins no value, so no spelling begins with it.
  have noMark : t.head? ≠ some (ofChar '\uFEFF') := by
    intro hmark
    obtain ⟨tail, rfl⟩ : ∃ tail, t = ofChar '\uFEFF' :: tail := by
      cases t with
      | nil => cases hmark
      | cons c tail => exact ⟨tail, by rw [Option.some.inj hmark]⟩
    obtain ⟨after, hvalue, -⟩ := h.readsAs _ [] (Nat.le_refl _) Delimited.nil
    rw [List.append_nil, skipBlanks_cons (by decide), value_byteOrderMark] at hvalue
    cases hvalue
  rw [read, if_neg noMark, h.whole_eq]

end SampleTypes.Json
