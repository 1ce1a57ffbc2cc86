import SampleTypes.Canonical
import SampleTypes.Descriptor.Json

/-!
# Shapes

Two types have the same shape if they differ in the order of fields only. The key of a shape is
the compact text of the canonical form, so that shapes are compared as texts.

## Main definitions

* `Outline.shapeKey?`, `Descriptor.shapeKey` — the key of a shape
* `Outline.sameShape?`, `Descriptor.sameShape` — comparing shapes
-/

namespace SampleTypes

namespace Outline

variable {φ : Type}

/-- The key of a shape, or the first stray value. -/
def shapeKey? (o : Outline φ) : Except φ Text := o.toJson?.map fun j => j.sorted.compact

/-- Whether two outlines have the same shape, or the first stray value of them. -/
def sameShape? (a b : Outline φ) : Except φ Bool := do
  let s ← a.shapeKey?
  let t ← b.shapeKey?
  return s == t

end Outline

namespace Descriptor

/-- The key of a shape. -/
def shapeKey (d : Descriptor) : Text := Outline.settled (Outline.shapeKey? d)

/-- Whether two types differ in the order of fields only. -/
def sameShape (a b : Descriptor) : Bool := a.shapeKey == b.shapeKey

end Descriptor

end SampleTypes
