import SampleTypes.Canonical
import SampleTypes.Proofs.Json.Ascii
import SampleTypes.Proofs.Json.Sorted

/-!
# Values with digests

A digest is taken of bytes, so a value with surrogates in it has none. What has a digest is
therefore kept by the indented form too, which is the form that a digest is printed beside.

## Main results

* `Json.Kept.of_compact`, `Json.Kept.of_sorted` — a value holds no surrogate if its compact form,
  or its sorted form, holds none
* `Json.Kept.of_digest` — nor does it if it has a digest
* `Json.ascii_digest` — a digest is printable ASCII
-/

namespace SampleTypes

namespace Json

theorem shortEscape?_eq_none {c : CodePoint} (h : 0x80 ≤ c.val) : shortEscape? c = none := by
  have ne (d : Char) (hd : (ofChar d).val < 0x80) : c ≠ ofChar d := by
    rintro rfl
    omega
  rw [shortEscape?, if_neg (ne _ (by decide)), if_neg (ne _ (by decide)), if_neg (ne _ (by decide)),
    if_neg (ne _ (by decide)), if_neg (ne _ (by decide)), if_neg (ne _ (by decide)),
    if_neg (ne _ (by decide))]

/-- The compact form escapes no surrogate. -/
theorem mem_string {t : Text} {c : CodePoint} (h : c ∈ t) (hc : c.isSurrogate = true) :
    c ∈ string false t := by
  have high : 0xD800 ≤ c.val := by
    simp only [CodePoint.isSurrogate, Bool.and_eq_true, decide_eq_true_eq] at hc
    exact hc.1
  have control : c.isControl = false := by
    simp only [CodePoint.isControl, decide_eq_false_iff_not]
    omega
  have short : shortEscape? c = none := shortEscape?_eq_none (by omega)
  have unescaped : stringOne false c = [c] := by simp [stringOne, short, control]
  have here : c ∈ t.flatMap (stringOne false) := by
    refine List.mem_flatMap.2 ⟨c, h, ?_⟩
    rw [unescaped]
    exact List.mem_singleton_self c
  exact List.mem_cons_of_mem _ (List.mem_append_left _ here)

theorem writable_of_string {t : Text} (h : ∀ c ∈ string false t, c.isSurrogate = false) :
    Writable true t := by
  intro _ c hc
  cases surrogate : c.isSurrogate with
  | false => rfl
  | true => exact (surrogate.symm.trans (h c (mem_string hc surrogate)))

/-- A value holds no surrogate if its compact form holds none. -/
theorem Kept.of_compact {j : Json} (h : Kept false j)
    (plain : ∀ c ∈ j.compact, c.isSurrogate = false) : Kept true j := by
  induction h with
  | null => exact .null
  | bool b => exact .bool b
  | int h => exact .int h
  | float h => exact .float h
  | text h => exact .text (writable_of_string plain)
  | @array items h ih =>
    apply Kept.array
    intro j hj
    refine ih j hj fun c hc => plain c ?_
    rw [compact, compactItems_eq_map]
    have inside := Text.mem_joinWith [ofChar ','] (List.mem_map_of_mem (f := compact) hj) hc
    exact List.mem_cons_of_mem _ (List.mem_append_left _ inside)
  | @object members nodup names h ih =>
    -- The string of the name and the form of the value are both parts of the form of the object.
    have inside : ∀ m ∈ members, ∀ c ∈ string false m.1 ++ ofChar ':' :: compact m.2,
        c ∈ compact (.object members) := by
      intro m hm c hc
      rw [compact, compactMembers_eq_map]
      have part := List.mem_map_of_mem
        (f := fun m : Text × Json => string false m.1 ++ ofChar ':' :: compact m.2) hm
      exact List.mem_cons_of_mem _ (List.mem_append_left _ (Text.mem_joinWith _ part hc))
    refine .object nodup (fun m hm => ?_) fun m hm => ih m hm fun c hc => plain c ?_
    · exact writable_of_string fun c hc =>
        plain c (inside m hm c (List.mem_append_left _ hc))
    · exact inside m hm c (List.mem_append_right _ (List.mem_cons_of_mem _ hc))

/-- Sorting hides no surrogate. -/
theorem Kept.of_sorted {j : Json} (h : Kept false j) (sorted : Kept true j.sorted) :
    Kept true j := by
  induction h with
  | null => exact .null
  | bool b => exact .bool b
  | int h => exact .int h
  | float h => exact .float h
  | text h => exact sorted
  | @array items h ih =>
    rw [sorted_array] at sorted
    cases sorted with
    | array hitems => exact .array fun j hj => ih j hj (hitems _ (List.mem_map_of_mem hj))
  | @object members nodup names h ih =>
    rw [sorted_object] at sorted
    cases sorted with
    | object _ hnames hvalues =>
      have inside : ∀ m ∈ members, (m.1, m.2.sorted) ∈
          Entries.sort (members.map fun m => (m.1, m.2.sorted)) := fun m hm =>
        (Entries.sort_perm _).mem_iff.2 (List.mem_map_of_mem hm)
      exact .object nodup (fun m hm => hnames (m.1, m.2.sorted) (inside m hm))
        fun m hm => ih m hm (hvalues (m.1, m.2.sorted) (inside m hm))

theorem digest_eq_ok_iff (j : Json) (digest : Text) :
    j.digest = .ok digest ↔
      ∃ bytes, Utf8.encode j.sorted.compact = .ok bytes ∧
        hexadecimal (Sha256.digest bytes) = digest := by
  rw [Json.digest]
  cases Utf8.encode j.sorted.compact with
  | error e => simp [Except.map]
  | ok bytes => simp [Except.map]

theorem exists_digest {j : Json} (h : ∀ c ∈ j.sorted.compact, c.isSurrogate = false) :
    ∃ digest, j.digest = .ok digest :=
  ⟨_, (digest_eq_ok_iff j _).2 ⟨_, (Utf8.encode_eq_ok_iff _ _).2 ⟨h, rfl⟩, rfl⟩⟩

/-- A value that has a digest is kept by the indented form. -/
theorem Kept.of_digest {j : Json} (h : Kept false j) {digest : Text}
    (hd : j.digest = .ok digest) : Kept true j := by
  -- The digest is taken of the bytes of the sorted compact form, so that form has bytes.
  obtain ⟨bytes, encoded, _⟩ := (digest_eq_ok_iff j digest).1 hd
  exact h.of_sorted (h.sorted.of_compact ((Utf8.encode_eq_ok_iff _ _).1 encoded).1)

theorem ascii_digest {j : Json} {digest : Text} (h : j.digest = .ok digest) :
    Text.Ascii digest := by
  obtain ⟨bytes, _, rfl⟩ := (digest_eq_ok_iff j digest).1 h
  exact Text.ascii_flatMap fun b _ => Utf8.ascii_hex 2 b.toNat

end Json

end SampleTypes
