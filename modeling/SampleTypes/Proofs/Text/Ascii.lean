import Mathlib.Tactic.SplitIfs
import SampleTypes.Proofs.Text.Utf8
import SampleTypes.Text.Newline
import SampleTypes.Text.Terminal

/-!
# Texts of printable ASCII

A text of printable ASCII and line feeds goes through a terminal and a file as it is: it holds no
control sequence that is taken out, no other line end that is unified, and it has bytes that are
decoded to it.

## Main definitions

* `Text.Ascii` — a text of printable ASCII and line feeds

## Main results

* `Text.joinWith_cons` — texts with a separator between them
* `Text.Ascii.stripControls_eq`, `Text.Ascii.ofDocument_eq` — such a text is printed and read as
  it is
* `Text.ascii_ofNat`, `Utf8.ascii_hex` — numbers are written so
-/

namespace SampleTypes

namespace Text

/-! ## Control sequences and line ends -/

theorem stripControls_eq_self {t : Text} (h : ofChar '\x1b' ∉ t) : t.stripControls = t := by
  induction t with
  | nil => rw [stripControls]
  | cons c rest ih =>
    rw [List.mem_cons, not_or] at h
    rw [stripControls, if_neg (Ne.symm h.1), ih h.2]

theorem unifyNewlines_eq_self {t : Text} (h : ofChar '\r' ∉ t) : t.unifyNewlines = t := by
  induction t with
  | nil => rfl
  | cons c rest ih =>
    rw [List.mem_cons, not_or] at h
    simp only [unifyNewlines] at ih ⊢
    rw [unifyNewlinesFrom, if_neg (Ne.symm h.1), if_neg (by simp), ih h.2]

/-! ## Joined texts -/

theorem joinWith_cons (separator t : Text) (parts : List Text) :
    joinWith separator (t :: parts) = t ++ parts.flatMap (separator ++ ·) := by
  induction parts generalizing t with
  | nil => simp [joinWith]
  | cons u rest ih => simp [joinWith, ih]

theorem mem_joinWith (separator : Text) {part : Text} {parts : List Text} (h : part ∈ parts)
    {c : CodePoint} (hc : c ∈ part) : c ∈ joinWith separator parts := by
  cases parts with
  | nil => cases h
  | cons t rest =>
    rw [joinWith_cons]
    rcases List.mem_cons.1 h with rfl | h
    · exact List.mem_append_left _ hc
    · exact List.mem_append_right _ (List.mem_flatMap.2 ⟨part, h, List.mem_append_right _ hc⟩)

theorem forall_mem_joinWith {P : CodePoint → Prop} {separator : Text}
    (hs : ∀ c ∈ separator, P c) {parts : List Text} (h : ∀ t ∈ parts, ∀ c ∈ t, P c) :
    ∀ c ∈ joinWith separator parts, P c := by
  cases parts with
  | nil => exact fun _ hc => nomatch hc
  | cons t rest =>
    obtain ⟨first, others⟩ := List.forall_mem_cons.1 h
    rw [joinWith_cons, List.forall_mem_append]
    refine ⟨first, fun c hc => ?_⟩
    obtain ⟨u, hu, hcu⟩ := List.mem_flatMap.1 hc
    exact List.forall_mem_append.2 ⟨hs, others u hu⟩ c hcu

/-! ## Printable ASCII -/

/-- A text of printable ASCII and line feeds. -/
def Ascii (t : Text) : Prop := ∀ c ∈ t, c = ofChar '\n' ∨ (0x20 ≤ c.val ∧ c.val < 0x7F)

variable {s t : Text}

@[simp] theorem ascii_nil : Ascii [] := by simp [Ascii]

@[simp] theorem ascii_cons {c : CodePoint} :
    Ascii (c :: t) ↔ (c = ofChar '\n' ∨ (0x20 ≤ c.val ∧ c.val < 0x7F)) ∧ Ascii t :=
  List.forall_mem_cons

@[simp] theorem ascii_append : Ascii (s ++ t) ↔ Ascii s ∧ Ascii t := List.forall_mem_append

instance (t : Text) : Decidable (Ascii t) := List.decidableBAll _ t

theorem ascii_replicate {c : CodePoint} (h : Ascii [c]) (n : Nat) :
    Ascii (List.replicate n c) := by
  intro d hd
  rw [List.eq_of_mem_replicate hd]
  exact h c (List.mem_singleton_self c)

theorem ascii_flatMap {α : Type} {f : α → Text} {l : List α} (h : ∀ a ∈ l, Ascii (f a)) :
    Ascii (l.flatMap f) := by
  intro c hc
  obtain ⟨a, ha, hca⟩ := List.mem_flatMap.1 hc
  exact h a ha c hca

theorem ascii_joinWith (hs : Ascii s) {parts : List Text} (h : ∀ t ∈ parts, Ascii t) :
    Ascii (joinWith s parts) :=
  forall_mem_joinWith hs h

/-! ## Numbers -/

theorem mem_toDigits {base : Nat} (hb : 1 < base) (n : Nat) :
    ∀ c ∈ Nat.toDigits base n, ∃ k < base, c = Nat.digitChar k := by
  induction n using Nat.strongRecOn with
  | ind n ih =>
    rw [Nat.toDigits_eq_if hb]
    split_ifs with small
    · intro c hc
      exact ⟨n, small, List.mem_singleton.1 hc⟩
    · intro c hc
      rcases List.mem_append.1 hc with hc | hc
      · exact ih (n / base) (Nat.div_lt_self (by omega) hb) c hc
      · exact ⟨n % base, Nat.mod_lt n (by omega), List.mem_singleton.1 hc⟩

theorem ascii_toDigits {base : Nat} (hb : 1 < base) (h : base ≤ 16) (n : Nat) :
    Ascii ((Nat.toDigits base n).map ofChar) := by
  have table : ∀ k : Fin 16, Ascii [ofChar (Nat.digitChar k)] := by decide
  intro c hc
  obtain ⟨d, hd, rfl⟩ := List.mem_map.1 hc
  obtain ⟨k, hk, rfl⟩ := mem_toDigits hb n d hd
  exact table ⟨k, by omega⟩ _ (List.mem_singleton_self _)

theorem ascii_ofNat (n : Nat) : Ascii (ofNat n) := ascii_toDigits (by decide) (by decide) n

theorem ascii_ofInt (n : Int) : Ascii (ofInt n) := by
  cases n with
  | ofNat n => exact ascii_ofNat n
  | negSucc n => exact ascii_cons.2 ⟨by decide, ascii_ofNat _⟩

/-! ## Printing and reading -/

theorem Ascii.isSurrogate_eq (h : Ascii t) : ∀ c ∈ t, c.isSurrogate = false := by
  intro c hc
  rcases h c hc with rfl | ⟨_, high⟩
  · decide
  · have : ¬ 0xD800 ≤ c.val := by omega
    simp [CodePoint.isSurrogate, this]

theorem Ascii.stripControls_eq (h : Ascii t) : t.stripControls = t :=
  stripControls_eq_self fun hc => absurd (h _ hc) (by decide)

/-- A text of printable ASCII has bytes, of which the document holds the text. -/
theorem Ascii.ofDocument_eq (h : Ascii t) :
    ∃ bytes, Utf8.encode t = .ok bytes ∧ ofDocument bytes = .ok t := by
  have encoded := (Utf8.encode_eq_ok_iff t _).2 ⟨h.isSurrogate_eq, rfl⟩
  refine ⟨_, encoded, ?_⟩
  rw [ofDocument, Utf8.decode_encode encoded, Except.map,
    unifyNewlines_eq_self fun hc => absurd (h _ hc) (by decide)]

end Text

theorem Utf8.ascii_hex (width n : Nat) : Text.Ascii (hex width n) :=
  Text.ascii_append.2 ⟨Text.ascii_replicate (by decide) _,
    Text.ascii_toDigits (by decide) (by decide) n⟩

end SampleTypes
