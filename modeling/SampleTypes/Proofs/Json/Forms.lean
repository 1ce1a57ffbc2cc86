import SampleTypes.Proofs.Entries
import SampleTypes.Proofs.Json.Grammar
import SampleTypes.Proofs.Json.Strings

/-!
# The two forms of a JSON value

The compact and the indented form both spell the value that they are a form of, so both are read
back. This holds of values without repeated names whose numbers are read back; the indented form
escapes every code point beyond ASCII, and keeps no surrogates that stand alone.

## Main definitions

* `Json.Writable`, `Json.Kept` — the texts and values that a form keeps

## Main results

* `Json.spelled_compact`, `Json.spelled_indentedAt` — the forms spell the value
* `Json.read_compact`, `Json.read_indented` — the forms are read back
* `Json.compact_inj` — different values have different compact forms
-/

namespace SampleTypes.Json

/-- Induction over the parts of a value. -/
@[elab_as_elim, induction_eliminator]
theorem byParts {motive : Json → Prop} (null : motive .null) (bool : ∀ b, motive (.bool b))
    (int : ∀ n, motive (.int n)) (float : ∀ x, motive (.float x)) (text : ∀ t, motive (.text t))
    (array : ∀ items, (∀ j ∈ items, motive j) → motive (.array items))
    (object : ∀ members, (∀ m ∈ members, motive m.2) → motive (.object members)) :
    ∀ j, motive j := by
  refine @Json.rec motive (fun items => ∀ j ∈ items, motive j)
    (fun members => ∀ m ∈ members, motive m.2) (fun m => motive m.2)
    null bool int float text array object ?_ ?_ ?_ ?_ ?_
  · simp
  · intro head tail hhead htail
    simpa using ⟨hhead, htail⟩
  · simp
  · intro head tail hhead htail m hm
    rcases List.mem_cons.1 hm with rfl | hm
    · exact hhead
    · exact htail m hm
  · exact fun _ _ h => h

/-- The code points that a form keeps. -/
def Writable (ascii : Bool) (t : Text) : Prop :=
  ascii = true → ∀ c ∈ t, c.isSurrogate = false

/-- The values that a form keeps: no object repeats a name, all texts are kept, and the numbers are
read back from what is written for them. -/
inductive Kept (ascii : Bool) : Json → Prop
  | null : Kept ascii .null
  | bool (b : Bool) : Kept ascii (.bool b)
  | int {n : Int} (h : SpellsScalar (.int n) (Text.ofInt n)) : Kept ascii (.int n)
  | float {x : Binary64} (h : SpellsScalar (.float x) (numbers.write x)) : Kept ascii (.float x)
  | text {t : Text} (h : Writable ascii t) : Kept ascii (.text t)
  | array {items : List Json} (h : ∀ j ∈ items, Kept ascii j) : Kept ascii (.array items)
  | object {members : List (Text × Json)} (nodup : (Entries.names members).Nodup)
      (names : ∀ m ∈ members, Writable ascii m.1) (h : ∀ m ∈ members, Kept ascii m.2) :
      Kept ascii (.object members)

theorem compactItems_eq_map (items : List Json) : compactItems items = items.map compact := by
  induction items with
  | nil => rfl
  | cons j rest ih => rw [compactItems, ih, List.map_cons]

theorem compactMembers_eq_map (members : List (Text × Json)) :
    compactMembers members =
      members.map fun m => string false m.1 ++ ofChar ':' :: compact m.2 := by
  induction members with
  | nil => rfl
  | cons m rest ih => rw [compactMembers, ih, List.map_cons]

theorem indentedItems_eq_map (level : Nat) (items : List Json) :
    indentedItems level items = items.map (indentedAt level) := by
  induction items with
  | nil => rfl
  | cons j rest ih => rw [indentedItems, ih, List.map_cons]

theorem indentedMembers_eq_map (level : Nat) (members : List (Text × Json)) :
    indentedMembers level members =
      members.map fun m => string true m.1 ++ Text.ofString ": " ++ indentedAt level m.2 := by
  induction members with
  | nil => rfl
  | cons m rest ih => rw [indentedMembers, ih, List.map_cons]

theorem spellsText_string {ascii : Bool} {t : Text} (h : Writable ascii t) :
    SpellsText t (string ascii t) :=
  ⟨⟨_, rfl⟩, stringAt_string h⟩

theorem spellsScalar_null : SpellsScalar .null (Text.ofString "null") :=
  ⟨⟨_, _, rfl, by decide⟩, fun _ _ => rfl⟩

theorem spellsScalar_truth (b : Bool) : SpellsScalar (.bool b) (truth b) := by
  cases b <;> exact ⟨⟨_, _, rfl, by decide⟩, fun _ _ => rfl⟩

theorem Blanks.nil : Blanks [] := by simp [Blanks]

/-- Parts on lines of their own are parts with blanks around them: where a part can take blanks
before and after it, so can all of a list. -/
theorem exists_padded {α β : Type} {Good : α → Prop} {text : α → Text} {content : α → β}
    (pad : ∀ before after a, Blanks before → Blanks after → Good a →
      ∃ b, Good b ∧ content b = content a ∧ text b = before ++ (text a ++ after))
    {sep close : Text} (hsep : Blanks sep) (hclose : Blanks close) {parts : List α}
    (nonempty : parts ≠ []) (h : ∀ a ∈ parts, Good a) :
    ∃ padded : List α, padded ≠ [] ∧ (∀ b ∈ padded, Good b) ∧
      padded.map content = parts.map content ∧
      Text.joinWith [ofChar ','] (padded.map text) =
        sep ++ Text.joinWith (ofChar ',' :: sep) (parts.map text) ++ close := by
  -- Each part takes the separator in front of it; the last one takes the closing blanks too.
  induction parts with
  | nil => exact absurd rfl nonempty
  | cons a parts ih =>
    have ha := h a (List.mem_cons_self ..)
    cases parts with
    | nil =>
      obtain ⟨b, hb, hcontent, htext⟩ := pad sep close a hsep hclose ha
      exact ⟨[b], by simp, by simpa using hb, by simp [hcontent], by simp [Text.joinWith, htext]⟩
    | cons a' parts =>
      obtain ⟨padded, hne, hpadded, hcontents, htexts⟩ :=
        ih (by simp) fun c hc => h c (List.mem_cons_of_mem _ hc)
      obtain ⟨b, hb, hcontent, htext⟩ := pad sep [] a hsep Blanks.nil ha
      obtain ⟨b', padded, rfl⟩ := List.exists_cons_of_ne_nil hne
      refine ⟨b :: b' :: padded, by simp, ?_, ?_, ?_⟩
      · rintro _ (_ | ⟨_, hc⟩)
        · exact hb
        · exact hpadded _ hc
      · rw [List.map_cons, hcontents, hcontent, ← List.map_cons]
      · simp only [List.map_cons, Text.joinWith] at htexts ⊢
        rw [htexts, htext]
        simp

theorem spelled_array {sep close : Text} (hsep : Blanks sep) (hclose : Blanks close)
    {items : List Json} (nonempty : items ≠ []) {form : Json → Text}
    (h : ∀ j ∈ items, Spelled j (form j)) :
    Spelled (.array items) (ofChar '[' ::
      (sep ++ Text.joinWith (ofChar ',' :: sep) (items.map form) ++ close ++ [ofChar ']'])) := by
  have pad (before after : Text) (p : Json × Text) (hb : Blanks before) (ha : Blanks after)
      (hp : Spelled p.1 p.2) :
      ∃ q : Json × Text, Spelled q.1 q.2 ∧ q.1 = p.1 ∧ q.2 = before ++ (p.2 ++ after) :=
    ⟨(p.1, before ++ (p.2 ++ after)), hp.padded hb ha, rfl, rfl⟩
  have parts : ∀ p ∈ items.map fun j => (j, form j), Spelled p.1 p.2 := by simpa using h
  obtain ⟨padded, hne, hpadded, hcontents, htexts⟩ :=
    exists_padded pad hsep hclose (by simpa using nonempty) parts
  have harray := Spelled.array hne hpadded
  rw [hcontents, htexts] at harray
  simpa [Function.comp_def] using harray

theorem spelled_object {sep gap close : Text} (hsep : Blanks sep) (hgap : Blanks gap)
    (hclose : Blanks close) {ascii : Bool} {members : List (Text × Json)}
    (nonempty : members ≠ []) (nodup : (Entries.names members).Nodup)
    (names : ∀ m ∈ members, Writable ascii m.1) {form : Json → Text}
    (h : ∀ m ∈ members, Spelled m.2 (form m.2)) :
    Spelled (.object members) (ofChar '\x7b' ::
      (sep ++ Text.joinWith (ofChar ',' :: sep)
        (members.map fun m => string ascii m.1 ++ ofChar ':' :: (gap ++ form m.2)) ++ close
          ++ [ofChar '\x7d'])) := by
  -- A member takes blanks before its name and after its value.
  have pad (before after : Text) (m : SpelledMember) (hb : Blanks before) (ha : Blanks after)
      (hm : (Blanks m.before ∧ Blanks m.between) ∧ SpellsText m.name m.nameText ∧
        Spelled m.value m.valueText) :
      ∃ n : SpelledMember, ((Blanks n.before ∧ Blanks n.between) ∧
        SpellsText n.name n.nameText ∧ Spelled n.value n.valueText) ∧
        n.entry = m.entry ∧ n.text = before ++ (m.text ++ after) := by
    refine ⟨{ m with before := before ++ m.before, valueText := m.valueText ++ after },
      ⟨⟨?_, hm.1.2⟩, hm.2.1, hm.2.2.padded Blanks.nil ha⟩, rfl, by simp [SpelledMember.text]⟩
    exact fun c hc => (List.mem_append.1 hc).elim (hb c) (hm.1.1 c)
  have parts : ∀ m ∈ members.map fun m =>
      (⟨[], m.1, string ascii m.1, [], m.2, gap ++ form m.2⟩ : SpelledMember),
      (Blanks m.before ∧ Blanks m.between) ∧ SpellsText m.name m.nameText ∧
        Spelled m.value m.valueText := by
    simp only [List.forall_mem_map]
    intro m hm
    have hvalue := (h m hm).padded hgap Blanks.nil
    rw [List.append_nil] at hvalue
    exact ⟨⟨Blanks.nil, Blanks.nil⟩, spellsText_string (names m hm), hvalue⟩
  obtain ⟨padded, hne, hpadded, hcontents, htexts⟩ :=
    exists_padded pad hsep hclose (by simpa using nonempty) parts
  have hobject := Spelled.object hne (fun m hm => (hpadded m hm).1)
    (fun m hm => (hpadded m hm).2.1) fun m hm => (hpadded m hm).2.2
  rw [hcontents, htexts, List.map_map] at hobject
  simp only [Function.comp_def, SpelledMember.entry, SpelledMember.text, List.map_map,
    List.nil_append, List.map_id', Entries.ofPairs_eq_merged, Entries.merged_eq_self nodup]
    at hobject
  simpa using hobject

theorem blanks_newLine (level : Nat) : Blanks (newLine level) := by
  intro c hc
  rcases List.mem_cons.1 hc with rfl | hc
  · decide
  · rw [List.eq_of_mem_replicate hc]
    decide

/-- The compact form of a value spells it. -/
theorem spelled_compact {j : Json} (h : Kept false j) : Spelled j j.compact := by
  induction h with
  | null => exact .scalar spellsScalar_null
  | bool b => exact .scalar (spellsScalar_truth b)
  | int h => exact .scalar h
  | float h => exact .scalar h
  | text h => exact .text (spellsText_string h)
  | @array items h ih =>
    rw [compact, compactItems_eq_map]
    by_cases nonempty : items = []
    · subst nonempty
      exact .emptyArray Blanks.nil
    · simpa using spelled_array Blanks.nil Blanks.nil nonempty ih
  | @object members nodup names h ih =>
    rw [compact, compactMembers_eq_map]
    by_cases nonempty : members = []
    · subst nonempty
      exact .emptyObject Blanks.nil
    · simpa using spelled_object Blanks.nil Blanks.nil Blanks.nil nonempty nodup names ih

/-- The indented form of a value spells it, at every level. -/
theorem spelled_indentedAt {j : Json} (h : Kept true j) (level : Nat) :
    Spelled j (j.indentedAt level) := by
  induction h generalizing level with
  | null => exact .scalar spellsScalar_null
  | bool b => exact .scalar (spellsScalar_truth b)
  | int h => exact .scalar h
  | float h => exact .scalar h
  | text h => exact .text (spellsText_string h)
  | @array items h ih =>
    rw [indentedAt, indentedItems_eq_map]
    by_cases nonempty : items = []
    · subst nonempty
      exact .emptyArray Blanks.nil
    · rw [block, if_neg (by simpa using nonempty)]
      exact spelled_array (blanks_newLine _) (blanks_newLine _) nonempty
        fun j hj => ih j hj (level + 1)
  | @object members nodup names h ih =>
    rw [indentedAt, indentedMembers_eq_map]
    by_cases nonempty : members = []
    · subst nonempty
      exact .emptyObject Blanks.nil
    · rw [block, if_neg (by simpa using nonempty)]
      have gap : Blanks [ofChar ' '] := by simp [Blanks, isBlank]
      simpa [Text.ofString] using spelled_object (blanks_newLine _) gap (blanks_newLine _)
        nonempty nodup names fun m hm => ih m hm (level + 1)

/-- The compact form is read back. -/
theorem read_compact {j : Json} (h : Kept false j) : read j.compact = .ok j :=
  (spelled_compact h).read_eq

/-- The indented form is read back. -/
theorem read_indented {j : Json} (h : Kept true j) : read j.indented = .ok j :=
  (spelled_indentedAt h 0).read_eq

/-- Values that the compact form keeps have different compact forms. -/
theorem compact_inj {j k : Json} (hj : Kept false j) (hk : Kept false k) :
    j.compact = k.compact ↔ j = k := by
  refine ⟨fun h => ?_, congrArg compact⟩
  have hread := read_compact hj
  rw [h, read_compact hk] at hread
  exact (Except.ok.inj hread).symm

end SampleTypes.Json
