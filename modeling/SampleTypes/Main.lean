import SampleTypes.Command.Run

/-!
# The command line program

A command line is run on the files and the standard streams of the system: this module only says how
these are read and how each action is taken there. The program ends with 0, with 2 if the command
rejects what it was asked to do, and with 1 after any other failure.
-/

namespace SampleTypes.Command

/-- The fault that an error of the system stands for. -/
def faultOf : IO.Error → AccessFault
  | .alreadyExists .. => .exists
  | .inappropriateType _ code _ => if code = 20 then .notDirectory else .isDirectory
  | .invalidArgument _ code _ => if code = 36 then .nameTooLong else .missing
  | _ => .missing

/-- A path as the system takes it. -/
def systemPath (path : FilePath) : String :=
  String.ofList (path.text.map fun c => Char.ofNat c.val)

/-- The bytes of a file. -/
def readSystemFile (path : FilePath) : IO (Except AccessError (List UInt8)) := do
  try
    let bytes ← IO.FS.readBinFile (systemPath path)
    return .ok bytes.toList
  catch error => return .error ⟨faultOf error, path⟩

/-- The bytes of a stream to its end. -/
partial def readStream (stream : IO.FS.Stream) (before : ByteArray) : IO ByteArray := do
  let chunk ← stream.read 65536
  if chunk.isEmpty then return before
  readStream stream (before ++ chunk)

/-- Write a text to a stream. -/
def writeStream (stream : IO.FS.Stream) (t : Text) : IO Unit := do
  stream.write (t.flatMap Utf8.encodeOne).toByteArray
  stream.flush

/-- Take an action on the files and the standard streams of the system. -/
def Action.takeOnSystem : Action → IO (Option Failure)
  | .print t => do
    writeStream (← IO.getStdout) t
    return none
  | .makeDirectories path => do
    try
      IO.FS.createDirAll (systemPath path)
      return none
    catch error => return some (.inaccessible ⟨faultOf error, path⟩)
  | .write path bytes => do
    try
      IO.FS.writeBinFile (systemPath path) bytes.toByteArray
      return none
    catch error => return some (.inaccessible ⟨faultOf error, path⟩)
  | .fail failure => return some failure

/-- The files and the standard streams of the system. -/
def Host.real : Host IO where
  read := readSystemFile
  standardInput := do return (← readStream (← IO.getStdin) .empty).toList
  take := Action.takeOnSystem

/-- The number that the program ends with after a failure. -/
def Failure.exitCode (failure : Failure) : UInt32 :=
  match failure.toClass with
  | .rejected => 2
  | .reported => 2
  | .unforeseen => 1

end SampleTypes.Command

open SampleTypes in
/-- Run the command line and report a failure on standard error. -/
def main (arguments : List String) : IO UInt32 := do
  match ← Command.Host.real.run (arguments.map Text.ofString) with
  | none => return 0
  | some failure =>
    Command.writeStream (← IO.getStderr) (Command.printedText failure.message)
    return failure.exitCode
