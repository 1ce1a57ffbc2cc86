import SampleTypes.Sample.Basic

/-!
# Refusals

Some functions are given a value that they have no case for: a value that is no descriptor where
one is wanted, or a value that has no JSON form. They refuse it and say what it was.

## Main definitions

* `Refusal` — the causes
* `Refusal.message`, `Refusal.details` — what is reported
-/

namespace SampleTypes

/-- What descriptors are read for. -/
inductive Purpose where
  /-- Their JSON form. -/
  | json
  /-- Their text in a declaration. -/
  | declaration
  deriving DecidableEq, Repr

/-- Why a value is refused. -/
inductive Refusal where
  /-- The value stands where a descriptor is wanted. -/
  | stray (purpose : Purpose) (typeName : Text)
  /-- A set has no order, hence no canonical form. -/
  | unordered (typeName : Text)
  /-- The value has no JSON form. -/
  | foreign (typeName : Text)
  /-- A caller marks a case that cannot arise, with a reason and details of its own. -/
  | marked (reason : Text) (details : List (Text × Sample))
  deriving Repr

namespace Refusal

/-- The reason of a refusal. A mark without a reason has a reason of its own. -/
def message : Refusal → Text
  | stray .json _ => Text.ofString "descriptor_to_json() received a non-descriptor"
  | stray .declaration _ => Text.ofString "format_type() received a non-descriptor"
  | unordered _ => Text.ofString "canon() does not accept unordered set inputs"
  | foreign _ => Text.ofString "canon() received non-JSON value"
  | marked reason _ =>
    if reason = [] then Text.ofString "never() marker reached" else reason

/-- The type of the refused value. -/
def ofType (typeName : Text) : List (Text × Sample) :=
  [(Text.ofString "value_type", Sample.ofText typeName)]

/-- Named details of a refusal. -/
def details : Refusal → List (Text × Sample)
  | stray _ t => ofType t
  | unordered t => ofType t
  | foreign t => ofType t
  | marked _ details => details

end Refusal

end SampleTypes
