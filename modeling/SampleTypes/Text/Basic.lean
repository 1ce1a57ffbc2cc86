/-!
# Text as code points

A text is a finite sequence of Unicode code points. Surrogates are code points too, and a text
may hold them alone: documents can name fields with them, although no encoded text can.

## Main definitions

* `CodePoint`, `Text` — a number below `0x110000`, and a list of them
* `Text.ofString`, `Text.ofNat`, `Text.ofInt` — literal and decimal texts
* `Text.le` — order by code points, the order in which canonical objects list their fields
* `Text.joinWith`, `Text.split` — texts joined by a separator, and taken apart at one
-/

namespace SampleTypes

/-- A Unicode code point, surrogates included. -/
abbrev CodePoint := Fin 0x110000

/-- A sequence of code points. -/
abbrev Text := List CodePoint

namespace CodePoint

/-- The code point of a number; past the last one the count begins anew. -/
def ofNat (n : Nat) : CodePoint := ⟨n % 0x110000, Nat.mod_lt n (by decide)⟩

theorem val_ofNat {n : Nat} (h : n < 0x110000) : (ofNat n).val = n := Nat.mod_eq_of_lt h

@[simp] theorem ofNat_val (c : CodePoint) : ofNat c.val = c := Fin.ext (val_ofNat c.isLt)

/-- The code point of a character. -/
def ofChar (c : Char) : CodePoint :=
  ⟨c.val.toNat, by
    have h := c.valid
    rcases h with h | ⟨_, h⟩ <;> simp at h ⊢ <;> omega⟩

/-- The low half of the surrogate range pairs with the high half before it. -/
def isLowSurrogate (c : CodePoint) : Bool := 0xDC00 ≤ c.val && c.val ≤ 0xDFFF

/-- The high half of the surrogate range opens a pair. -/
def isHighSurrogate (c : CodePoint) : Bool := 0xD800 ≤ c.val && c.val ≤ 0xDBFF

/-- Surrogates stand for no character, and no encoded text holds one. -/
def isSurrogate (c : CodePoint) : Bool := 0xD800 ≤ c.val && c.val ≤ 0xDFFF

/-- The ASCII decimal digits. -/
def isDigit (c : CodePoint) : Bool := 0x30 ≤ c.val && c.val ≤ 0x39

theorem ne_of_isDigit {d : CodePoint} {c : Char} (hd : d.isDigit = true)
    (hc : (ofChar c).isDigit = false) : d ≠ ofChar c := by
  rintro rfl
  exact Bool.noConfusion (hc.symm.trans hd)

/-- The ASCII upper-case letters. -/
def isUpper (c : CodePoint) : Bool := 0x41 ≤ c.val && c.val ≤ 0x5A

/-- The ASCII lower-case letters. -/
def isLower (c : CodePoint) : Bool := 0x61 ≤ c.val && c.val ≤ 0x7A

/-- The ASCII letters. -/
def isLetter (c : CodePoint) : Bool := c.isUpper || c.isLower

/-- The ASCII letters and digits. -/
def isAlphanumeric (c : CodePoint) : Bool := c.isLetter || c.isDigit

/-- The code points below the space. -/
def isControl (c : CodePoint) : Bool := c.val < 0x20

/-- An ASCII lower-case letter becomes its capital; all else stays. -/
def toUpper (c : CodePoint) : CodePoint := if c.isLower then c - 0x20 else c

/-- An ASCII capital becomes its lower-case letter; all else stays. -/
def toLower (c : CodePoint) : CodePoint := if c.isUpper then c + 0x20 else c

/-- The value of an ASCII digit of a base up to sixteen, in either case of letter. -/
def digitValue? (c : CodePoint) : Option Nat :=
  if c.isDigit then some (c.val - 0x30)
  else if 0x61 ≤ c.val ∧ c.val ≤ 0x66 then some (c.val - 0x61 + 10)
  else if 0x41 ≤ c.val ∧ c.val ≤ 0x46 then some (c.val - 0x41 + 10)
  else none

end CodePoint

export CodePoint (ofChar)

namespace Text

/-- The code points of a literal. -/
def ofString (s : String) : Text := s.toList.map ofChar

/-- The decimal digits of a number, without leading zeros. -/
def ofNat (n : Nat) : Text := (Nat.toDigits 10 n).map ofChar

/-- A minus sign where there is need of one, then the decimal digits. -/
def ofInt : Int → Text
  | .ofNat n => ofNat n
  | .negSucc n => ofChar '-' :: ofNat (n + 1)

/-- The number a run of decimal digits writes; other code points count as zero. -/
def toNat (digits : Text) : Nat :=
  digits.foldl (fun n c => 10 * n + c.digitValue?.getD 0) 0

/-- Order by code points: the first difference decides, and a beginning comes before the whole. -/
def le : Text → Text → Bool
  | [], _ => true
  | _ :: _, [] => false
  | a :: s, b :: t => a < b || (a == b && le s t)

/-- The texts one after another, with the separator between neighbours. -/
def joinWith (separator : Text) : List Text → Text
  | [] => []
  | [t] => t
  | t :: rest => t ++ separator ++ joinWith separator rest

/-- What remains after a beginning, if the text begins so. -/
def after? : Text → Text → Option Text
  | [], t => some t
  | _ :: _, [] => none
  | a :: s, b :: t => if a = b then after? s t else none

theorem after_suffix {word t rest : Text} (h : after? word t = some rest) : rest <:+ t := by
  induction word generalizing t with
  | nil =>
    cases h
    exact List.suffix_refl _
  | cons a word ih =>
    cases t with
    | nil => cases h
    | cons b t =>
      rw [after?] at h
      split at h
      · exact (ih h).trans (List.suffix_cons ..)
      · cases h

/-- The beginning before the first occurrence of a code point, and what follows it, if there
is one. -/
def splitAt? (c : CodePoint) (t : Text) : Option (Text × Text) :=
  match t.dropWhile (· != c) with
  | [] => none
  | _ :: rest => some (t.takeWhile (· != c), rest)

/-- The parts of a text between the occurrences of a code point. -/
def split (c : CodePoint) : Text → List Text
  | [] => [[]]
  | d :: rest =>
    match split c rest with
    | [] => [[d]]
    | part :: parts => if d = c then [] :: part :: parts else (d :: part) :: parts

/-- ASCII capitals become lower-case letters. -/
def lower (t : Text) : Text := t.map CodePoint.toLower

end Text

end SampleTypes
