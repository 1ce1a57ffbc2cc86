import SampleTypes.Sample.Basic
import SampleTypes.Text.Blank

/-!
# Settings

How declarations are named when the command line does not say: under a fixed name, or after the
input file. Settings are read tolerantly, from any sample: what is not understood counts as
absent.

## Main definitions

* `Settings` — the settings, by default none
* `Settings.ofTable` — the settings in a table
* `Settings.withDeriveName` — settings with one of them replaced
-/

namespace SampleTypes

/-- How a declaration is named. -/
structure Settings where
  /-- The name of every type. -/
  typeName : Option Text := none
  /-- Name types after the input file. -/
  deriveName : Bool := false
  deriving DecidableEq, Repr

namespace Settings

/-- The name of the file that settings are read from. -/
def fileName : Text := Text.ofString "typeshape.toml"

/-- The table of the file that holds them. -/
def tableName : Text := Text.ofString "render"

/-- The words that switch a setting on. -/
def trueWords : List Text := ["1", "true", "yes", "on"].map Text.ofString

/-- Whether a sample switches a setting on: a truth value itself does or does not, a whole number
if it is not zero, a text if it is one of the words for it in any case, among blanks. -/
def flag : Sample → Bool
  | .bool b => b
  | .int _ n => n != 0
  | .text _ t => trueWords.contains t.strip.lower
  | _ => false

/-- The name in a sample: a text that is not blank, without the blanks around it. -/
def name? : Sample → Option Text
  | .text n t => if t.strip = [] ∨ n.truth = some false then none else some t.strip
  | _ => none

/-- The settings in a table. Only a dictionary has any. -/
def ofTable : Sample → Settings
  | .mapping .dict _ entries =>
    { typeName := (Sample.lookup? (Text.ofString "type_name") entries).bind name?
      deriveName := ((Sample.lookup? (Text.ofString "derive_name") entries).map flag).getD false }
  | _ => {}

/-- The settings with a choice about names that are derived, if one is made. -/
def withDeriveName (s : Settings) : Option Bool → Settings
  | none => s
  | some choice => { s with deriveName := choice }

end Settings

end SampleTypes
