import SampleTypes.Proofs.Canonical.Normal
import SampleTypes.Proofs.Json.Legible
import SampleTypes.Proofs.Json.Numbers

/-!
# The text of a canonical form is read back

A document of the text that a sample is encoded as holds its canonical form: the same values of the
same kinds, with the members of every object in the same order. The strings in it may hold any code
points, surrogates among them, because quotation marks, backslashes and control characters are
escaped and all else stands for itself. Of numbers it is supposed that floating-point numbers are
read back from their texts; whole numbers are if they are not too long.

## Main definitions

* `Json.FloatsReadBack` — all floating-point numbers within a value are read back from their texts

## Main results

* `Json.read_compact_iff` — a compact form is read back if its numbers are
* `Sample.read_of_encode` — the text of a canonical form is read back, and says all about it
-/

namespace SampleTypes

namespace Json

/-- Every floating-point number within a value is held by a document of its text. -/
def FloatsReadBack (j : Json) : Prop :=
  ∀ x, Within (.float x) j → read (numbers.write x) = .ok (.float x)

/-- Without repeated names, a value is read back from its compact form exactly if its whole numbers
are short enough. -/
theorem read_compact_iff {j : Json} (distinct : j.Distinct) (floats : j.FloatsReadBack) :
    read j.compact = .ok j ↔ j.Legible := by
  refine ⟨legible_of_read, fun legible => ?_⟩
  exact read_compact (kept_of_numbers distinct (fun n within => spellsScalar_int (legible n within))
    fun x within => spellsScalar_float (floats x within))

end Json

namespace Sample

theorem encode_eq_ok_iff {s : Sample} {t : Text} :
    s.encode = .ok t ↔ ∃ j, s.canonical = .ok j ∧ j.compact = t :=
  map_eq_ok_iff

/-- What the text of a canonical form says. If its floating-point numbers are read back from their
texts, then the canonical form is read back as it stands, unless a whole number in it has more
digits than the limit on conversions between numbers and texts allows. That limit is one of both
directions: where it is kept, no such number is written either. And whatever numbers there are, two
samples are encoded alike exactly if their canonical forms are the same in structure, in the kinds
of their scalars and in the texts of these. -/
theorem read_of_encode {s : Sample} {t : Text} (written : s.encode = .ok t) :
    ∃ j, s.canonical = .ok j ∧
      (j.FloatsReadBack → (Json.read t = .ok j ↔ j.Legible)) ∧
      ∀ (s' : Sample) (t' : Text), s'.encode = .ok t' →
        (t = t' ↔ ∃ j', s'.canonical = .ok j' ∧ Json.Alike j j') := by
  obtain ⟨j, canonical, rfl⟩ := encode_eq_ok_iff.1 written
  refine ⟨j, canonical, Json.read_compact_iff (ordered_of_canonical canonical).distinct, ?_⟩
  intro s' t' written'
  obtain ⟨j', canonical', rfl⟩ := encode_eq_ok_iff.1 written'
  rw [Json.compact_eq_iff_alike]
  constructor
  · exact fun alike => ⟨j', canonical', alike⟩
  · rintro ⟨k, form, alike⟩
    rw [canonical', Except.ok.injEq] at form
    exact form ▸ alike

/-- Two keys with one text; a quotation mark, a backslash, a line end and the two halves of a pair
of surrogates; a whole number and one with a fraction. -/
theorem read_of_encode_of_surrogates :
    let one := Text.ofString "1"
    let odd : Text := Text.ofString "\"\\\n" ++ [0xD83D, 0xDE00]
    let x := Binary64.ofDecimal false 15 (-1)
    ∃ t, (Sample.dict [(ofInt 1, .null),
        (ofText one, .tuple [ofText odd, ofInt 12, ofFloat x])]).encode = .ok t ∧
      Json.read t = .ok (.object [(one, .array [.text odd, .int 12, .float x])]) := by
  intro one odd x
  let entries : List (Sample × Sample) :=
    [(ofInt 1, .null), (ofText one, .tuple [ofText odd, ofInt 12, ofFloat x])]
  let j : Json := .object [(one, .array [.text odd, .int 12, .float x])]
  have form : (Sample.mapping .dict (Nature.named "dict") entries).canonical = .ok j := by
    have merged : Entries.merged (labelled entries) =
        [(one, .tuple [ofText odd, ofInt 12, ofFloat x])] := rfl
    refine canonical_mapping_iff.2 ⟨_, ?_, rfl⟩
    rw [merged, Entries.sort_eq_self (by decide)]
    exact .cons ⟨rfl, rfl⟩ .nil
  obtain ⟨k, canonical, back, -⟩ := read_of_encode (encode_eq_ok_iff.2 ⟨j, form, rfl⟩)
  obtain rfl : j = k := Except.ok.inj (form.symm.trans canonical)
  have floats : j.FloatsReadBack := by
    intro y within
    obtain rfl : y = x := by
      simpa [j, Json.within_object_iff, Json.within_array_iff, Json.within_iff_eq] using within
    have text : Json.numbers.write x = Text.ofString "1.5" := by decide +kernel
    rw [text]
    rfl
  have legible : j.Legible := by
    intro n within
    obtain rfl : n = 12 := by
      simpa [j, Json.within_object_iff, Json.within_array_iff, Json.within_iff_eq] using within
    decide
  exact ⟨_, encode_eq_ok_iff.2 ⟨j, form, rfl⟩, (back floats).2 legible⟩

end Sample

end SampleTypes
