import SampleTypes.Text.Basic

/-!
# Similar words

Two texts are compared by the blocks they have in common: the longest block is taken first, and
then what stands to the left of it and to the right of it in both texts is compared in the same
way. The similarity is the part of the two texts that is in such blocks.

## Main definitions

* `Text.longestBlock` — the longest block that two texts have in common
* `Text.similarity` — the part of two texts that is in common blocks
* `Text.closest` — the candidates that are similar to a word, the most similar first
-/

namespace SampleTypes

/-- A block that two texts have in common: where it starts in each of them, and its length. -/
structure CommonBlock where
  left : Nat := 0
  right : Nat := 0
  length : Nat := 0
  deriving DecidableEq, Repr

/-- A part of a number of code points. -/
structure Share where
  part : Nat
  whole : Nat
  deriving DecidableEq, Repr

/-- Whether a share is at least as great as another. -/
def Share.atLeast (a b : Share) : Bool := b.part * a.whole ≤ a.part * b.whole

namespace Text

/-- The number of code points that two texts have in common at their beginning. -/
def commonBeginning : Text → Text → Nat
  | a :: s, b :: t => if a = b then commonBeginning s t + 1 else 0
  | _, _ => 0

/-- The longest block that two texts have in common. Of several, the one that starts first in the
first text counts, and of those the one that starts first in the second. -/
def longestBlock (s t : Text) : CommonBlock :=
  let blocks := (List.range s.length).flatMap fun i =>
    (List.range t.length).map fun j => ⟨i, j, commonBeginning (s.drop i) (t.drop j)⟩
  blocks.foldl (fun best block => if best.length < block.length then block else best) {}

/-- The number of code points in common blocks. Every block takes a code point of the first text,
so its length is enough fuel. -/
def matchedFrom : (fuel : Nat) → Text → Text → Nat
  | 0, _, _ => 0
  | fuel + 1, s, t =>
    let block := longestBlock s t
    if block.length = 0 then 0
    else
      matchedFrom fuel (s.take block.left) (t.take block.right) + block.length
        + matchedFrom fuel (s.drop (block.left + block.length))
            (t.drop (block.right + block.length))

/-- The part of two texts that is in common blocks. -/
def similarity (s t : Text) : Share where
  part := 2 * matchedFrom s.length s t
  whole := s.length + t.length

/-- The least similarity that counts. -/
def leastSimilarity : Share := ⟨3, 5⟩

/-- The greatest number of candidates that are offered. -/
def maxOffers : Nat := 3

/-- The candidates that are similar to a word, the most similar first, and of equally similar
ones the one that comes last by code points. -/
def closest (candidates : List Text) (word : Text) : List Text :=
  let scored := candidates.map fun candidate => (similarity candidate word, candidate)
  let similar := scored.filter fun entry => entry.1.atLeast leastSimilarity
  -- In reverse order throughout: by similarity, and then by code points.
  let isBefore (a b : Share × Text) : Bool :=
    a.1.atLeast b.1 && (!b.1.atLeast a.1 || b.2.le a.2)
  ((similar.mergeSort isBefore).take maxOffers).map Prod.snd

end Text

end SampleTypes
