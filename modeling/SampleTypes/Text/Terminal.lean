import SampleTypes.Text.Utf8

/-!
# Text for a terminal

Text printed on a stream that is no terminal loses its control sequences: an escape, an opening
bracket, any number of digits, semicolons and question marks, and one letter. Text that is quoted
back to the user shows its control characters instead, so that they act on no terminal.

## Main definitions

* `Text.stripControls` — the text without its control sequences
* `Text.showControls` — the text with its control characters spelt out

## Main results

* `Text.showControls_eq_self` — a text without control characters stays as it is
-/

namespace SampleTypes.Text

/-- What stands between the bracket and the letter of a control sequence. -/
def isParameter (c : CodePoint) : Bool := c.isDigit || c == ofChar ';' || c == ofChar '?'

/-- After an escape: what follows the control sequence, if this is one. -/
def afterControl? : Text → Option Text
  | [] => none
  | c :: rest =>
    if c = ofChar '[' then
      match rest.dropWhile isParameter with
      | [] => none
      | d :: rest' => if d.isLetter then some rest' else none
    else none

theorem length_lt_of_afterControl? {t r : Text} (h : afterControl? t = some r) :
    r.length < t.length := by
  unfold afterControl? at h
  split at h
  · contradiction
  · next c rest =>
    split at h
    · split at h
      · contradiction
      · next d rest' hd =>
        split at h
        · obtain rfl := Option.some.inj h
          have hle := (List.dropWhile_sublist isParameter (l := rest)).length_le
          rw [hd] at hle
          simp only [List.length_cons] at hle ⊢
          omega
        · contradiction
    · contradiction

/-- The text without its control sequences. -/
def stripControls : Text → Text
  | [] => []
  | c :: rest =>
    if c = ofChar '\x1b' then
      match _h : afterControl? rest with
      | some rest' => stripControls rest'
      | none => c :: stripControls rest
    else c :: stripControls rest
termination_by t => t.length
decreasing_by
  -- What follows a control sequence is shorter than what follows its escape.
  · have := length_lt_of_afterControl? ‹_›
    simp only [List.length_cons]; omega
  · simp
  · simp

/-- The code points that act on a terminal instead of being shown on it: those below the space,
and the block from the deletion on. -/
def isTerminalControl (c : CodePoint) : Bool := c.isControl || (0x7F ≤ c.val && c.val ≤ 0x9F)

/-- A code point as it is shown: a control character by its two hexadecimal digits. -/
def showControl (c : CodePoint) : Text :=
  if isTerminalControl c then ofString "\\x" ++ Utf8.hex 2 c.val else [c]

/-- The text with its control characters spelt out. -/
def showControls (t : Text) : Text := t.flatMap showControl

theorem showControls_eq_self {t : Text} (h : ∀ c ∈ t, isTerminalControl c = false) :
    t.showControls = t := by
  induction t with
  | nil => rfl
  | cons c rest ih =>
    have hc := h c (List.mem_cons_self ..)
    have hrest := ih fun d hd => h d (List.mem_cons_of_mem _ hd)
    simp only [showControls, List.flatMap_cons] at hrest ⊢
    rw [hrest]
    simp [showControl, hc]

end SampleTypes.Text
