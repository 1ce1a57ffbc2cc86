import SampleTypes.Files.Path
import SampleTypes.Text.Quoted

/-!
# Files

The files and directories that a command sees. A path is followed name by name: every name but
the last has to lead to a directory. Where an operation fails, it says how and at which path.

## Main definitions

* `Files` — files and directories, and the working directory
* `Files.read` — the bytes of a file
* `Files.makeDirectories` — a directory, with those above it
* `Files.write` — bytes put into a file, in place of what it held
* `Files.changedSince` — the files in the working directory that differ from an earlier state

## Main results

* `Files.node?_put_self`, `Files.node?_put_of_ne` — putting something in a place changes that place
  and no other
-/

namespace SampleTypes

/-- How access to a path fails. -/
inductive AccessFault where
  | missing
  | exists
  | notDirectory
  | isDirectory
  | nameTooLong
  deriving DecidableEq, Repr

namespace AccessFault

/-- The number of a fault. -/
def number : AccessFault → Nat
  | missing => 2
  | .exists => 17
  | notDirectory => 20
  | isDirectory => 21
  | nameTooLong => 36

/-- The text of a fault. -/
def text : AccessFault → Text
  | missing => Text.ofString "No such file or directory"
  | .exists => Text.ofString "File exists"
  | notDirectory => Text.ofString "Not a directory"
  | isDirectory => Text.ofString "Is a directory"
  | nameTooLong => Text.ofString "File name too long"

end AccessFault

/-- A fault and the path at which it occurred. -/
structure AccessError where
  fault : AccessFault
  path : FilePath
  deriving DecidableEq, Repr

/-- The number and text of the fault, and the path in quotes. -/
def AccessError.message (e : AccessError) : Text :=
  Text.ofString "[Errno " ++ Text.ofNat e.fault.number ++ Text.ofString "] " ++ e.fault.text
    ++ Text.ofString ": " ++ e.path.text.quoted

/-- What stands at a place. -/
inductive Node where
  | directory
  | file (bytes : List UInt8)
  deriving DecidableEq, Repr

/-- The names on the way from the root to a place. -/
abbrev Location := List Text

/-- Files and directories, and the working directory. -/
structure Files where
  nodes : List (Location × Node) := []
  workingDirectory : Location := []
  deriving DecidableEq, Repr

namespace Files

/-- What stands at a place; the root is a directory. -/
def node? (files : Files) (location : Location) : Option Node :=
  if location = [] then some .directory
  else (files.nodes.find? fun entry => entry.1 = location).map Prod.snd

/-- Put a file or directory in a place. -/
def put (files : Files) (location : Location) (node : Node) : Files :=
  { files with nodes := (location, node) :: files.nodes.filter fun entry => entry.1 ≠ location }

@[simp] theorem node?_put_self (files : Files) {location : Location} (h : location ≠ [])
    (node : Node) : (files.put location node).node? location = some node := by
  simp [node?, put, h]

theorem node?_put_of_ne (files : Files) {location other : Location} (h : other ≠ location)
    (node : Node) : (files.put location node).node? other = files.node? other := by
  have hfind : (files.nodes.filter fun entry => entry.1 ≠ location).find?
      (fun entry => entry.1 = other) = files.nodes.find? fun entry => entry.1 = other := by
    rw [List.find?_filter]
    congr 1
    funext entry
    by_cases he : entry.1 = other <;> simp [he, h]
  simp only [node?, put, List.find?_cons, Ne.symm h, decide_false, hfind]

/-- The greatest number of bytes of a name. -/
def maxNameBytes : Nat := 255

/-- The greatest number of bytes of a path. -/
def maxPathBytes : Nat := 4095

/-- Follow names from a directory. Nothing needs to stand at the end of the way. -/
def follow (files : Files) (location : Location) : List Text → Except AccessFault Location
  | [] => .ok location
  | name :: names =>
    match files.node? location with
    | none => .error .missing
    | some (.file _) => .error .notDirectory
    | some .directory =>
      -- The root is the directory above itself.
      if name = FilePath.above then files.follow location.dropLast names
      else if maxNameBytes < name.systemLength then .error .nameTooLong
      else files.follow (location ++ [name]) names

/-- The place that a path leads to. -/
def locate (files : Files) (path : FilePath) : Except AccessFault Location :=
  if maxPathBytes < path.text.systemLength then .error .nameTooLong
  else files.follow (if path.start = .here then files.workingDirectory else []) path.names

/-- Whether a path leads to a directory. -/
def isDirectory (files : Files) (path : FilePath) : Bool :=
  match files.locate path with
  | .ok location => files.node? location = some .directory
  | .error _ => false

/-- The bytes of a file. -/
def read (files : Files) (path : FilePath) : Except AccessError (List UInt8) :=
  match files.locate path with
  | .error fault => .error ⟨fault, path⟩
  | .ok location =>
    match files.node? location with
    | some (.file bytes) => .ok bytes
    | some .directory => .error ⟨.isDirectory, path⟩
    | none => .error ⟨.missing, path⟩

/-- Make a directory in an existing one. -/
def makeDirectory (files : Files) (path : FilePath) : Except AccessFault Files := do
  let location ← files.locate path
  match files.node? location with
  | some _ => .error .exists
  | none => .ok (files.put location .directory)

/-- Make a directory in an existing one, or find it there. -/
def ensureDirectory (files : Files) (path : FilePath) : Files × Option AccessError :=
  match files.makeDirectory path with
  | .ok files => (files, none)
  | .error fault => (files, if files.isDirectory path then none else some ⟨fault, path⟩)

/-- Make directories for the names of a path, which are given from the last to the first: if the
directory above is missing, it is made first. The result holds what was made before a
fault. -/
def makeDirectoriesFrom (start : PathStart) (files : Files) :
    (names : List Text) → Files × Option AccessError
  | [] => files.ensureDirectory ⟨start, []⟩
  | name :: names =>
    let path : FilePath := ⟨start, (name :: names).reverse⟩
    -- Any other fault than a missing directory above comes up again in the last attempt.
    match files.makeDirectory path with
    | .error .missing =>
      match makeDirectoriesFrom start files names with
      | (files, none) => files.ensureDirectory path
      | failed => failed
    | _ => files.ensureDirectory path

/-- Make a directory with those above it; those that exist stay. -/
def makeDirectories (files : Files) (path : FilePath) : Files × Option AccessError :=
  makeDirectoriesFrom path.start files path.names.reverse

/-- Put bytes into a file, which is made if need be. -/
def write (files : Files) (path : FilePath) (bytes : List UInt8) : Except AccessError Files :=
  match files.locate path with
  | .error fault => .error ⟨fault, path⟩
  | .ok location =>
    if files.node? location = some .directory then .error ⟨.isDirectory, path⟩
    else .ok (files.put location (.file bytes))

/-- Add a file or directory at a path, with the directories above it. -/
def add (files : Files) (path : FilePath) : Node → Files
  | .directory => (files.makeDirectories path).1
  | .file bytes =>
    let files := (files.makeDirectories path.parent).1
    match files.write path bytes with
    | .ok files => files
    | .error _ => files

/-- A working directory that holds files and directories at some paths. -/
def ofList (workingDirectory : Location) (nodes : List (FilePath × Node)) : Files :=
  let empty := (makeDirectories {} ⟨.root, workingDirectory⟩).1
  nodes.foldl (fun files entry => files.add entry.1 entry.2) { empty with workingDirectory }

/-- The names on the way from one place to another below it. -/
def below? (location : Location) (path : Location) : Option (List Text) :=
  if location.isPrefixOf path then some (path.drop location.length) else none

/-- The files in the working directory that are new or hold other bytes than before, in the order
of their paths. -/
def changedSince (files before : Files) : List (Text × List UInt8) :=
  -- Directories are left out, and so is what lies elsewhere.
  let changed := files.nodes.filterMap fun entry =>
    match entry.2, below? files.workingDirectory entry.1 with
    | .file bytes, some names =>
      if before.node? entry.1 = some (.file bytes) then none
      else some (Text.joinWith [ofChar '/'] names, bytes)
    | _, _ => none
  changed.mergeSort fun a b => a.1.le b.1

end Files

end SampleTypes
