import SampleTypes.Files.Basic
import SampleTypes.Settings
import SampleTypes.Text.Newline
import SampleTypes.Toml.Reader

/-!
# Settings in a file

Settings are read from the table `render` of a TOML document. A file that cannot be read and a
document that is malformed count as one without settings. A file that is no text, and a number
that is too long to be read, are faults, and so is a path that names no file.

## Main definitions

* `Settings.path` — the path of the file
* `Settings.ofDocument` — the settings in a document
* `Settings.ofFile` — the settings in a file, if it can be read
* `Settings.atPath` — the settings in the file at a path, if the path names one
-/

namespace SampleTypes.Settings

/-- Why a file has no settings, not even the default ones. -/
inductive FileFault where
  | undecodable (fault : Utf8.Malformed)
  | integerTooLong (digits : Nat)
  | unusablePath (fault : PathFault)
  deriving DecidableEq, Repr

/-- The message of a fault. -/
def FileFault.message : FileFault → Text
  | .undecodable fault => fault.message
  | .integerTooLong digits => Json.tooLongMessage digits
  | .unusablePath fault => fault.message

/-- The path of the file with settings: one that is given, or a fixed name in a directory. -/
def path (directory : FilePath) (given : Option FilePath) : FilePath :=
  given.getD (directory.child fileName)

/-- The settings in a document. -/
def ofDocument (document : Text) : Except FileFault Settings :=
  match Toml.read document with
  | .ok (.table entries) => .ok (((Entries.find? tableName entries).map
      fun table => ofTable (Sample.ofToml table)).getD {})
  | .ok _ => .ok {}
  -- A document that is malformed says nothing, but a number that is too long is a fault.
  | .error .malformed => .ok {}
  | .error (.integerTooLong digits) => .error (.integerTooLong digits)

/-- The settings in a file, of which the bytes are given if it can be read. -/
def ofFile : Except AccessError (List UInt8) → Except FileFault Settings
  | .error _ => .ok {}
  | .ok bytes =>
    match Text.ofDocument bytes with
    | .error fault => .error (.undecodable fault)
    | .ok document => ofDocument document

/-- The settings in the file at a path, of which the bytes can be asked for. -/
def atPath (read : FilePath → Except AccessError (List UInt8)) (path : FilePath) :
    Except FileFault Settings :=
  match PathFault.of? path.text with
  | some fault => .error (.unusablePath fault)
  | none => ofFile (read path)

end SampleTypes.Settings
