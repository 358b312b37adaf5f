import AttributeOptimizer.CommandLine.Command
import AttributeOptimizer.Log.Directory

set_option autoImplicit false

/-! # The program

Runs the command with the arguments of the process: finds what the command needs around it, and
carries out what it answers. -/

namespace AttributeOptimizer

namespace Program

/-- The contents of the file at a path, if it can be read. -/
def readFile? (path : String) : IO FileContents :=
  try
    return some (← IO.FS.readBinFile ⟨path⟩).toList
  catch _ => return none

/-- The rest of a stream. -/
partial def readRest (stream : IO.FS.Stream) (before : ByteArray) : IO ByteArray := do
  let chunk ← stream.read 65536
  if chunk.isEmpty then return before else readRest stream (before ++ chunk)

/-- Whether a directory for logs could be made at a path. -/
def makeDirectory (path : String) : IO Bool :=
  try
    IO.FS.createDirAll ⟨path⟩
    return true
  catch _ => return false

/-- What the command finds around it; only what the arguments name is looked at. -/
def surroundings (a : Arguments) : IO Surroundings := do
  let canKeepLog ← match a.logDir with
    | some path => makeDirectory path
    | none => pure true
  let paths := a.config.toList ++ a.input.toList
  let files ← paths.mapM fun path => return (path, ← readFile? path)
  let input ← if a.input.isNone then readRest (← IO.getStdin) ByteArray.empty
    else pure ByteArray.empty
  return {
    file := fun path => (files.lookup path).join
    input := input.toList
    canKeepLogIn := fun _ => canKeepLog
    filterVariable := ← IO.getEnv Command.filterVariable }

/-- The colour of a level on a terminal. -/
def colour : LogLevel → String
  | .error => "31"
  | .warn => "33"
  | .info => "32"
  | .debug => "34"
  | .trace => "35"

/-- A log line as it is shown on the standard error. -/
def shownLine (coloured : Bool) (line : LogLine) : String :=
  if coloured then
    "\x1b[" ++ colour line.level ++ "m" ++ line.level.name ++ "\x1b[0m " ++ line.target.path ++
      ": " ++ line.shownMessage
  else line.text

/-- Adds the lines of a session log to its file. -/
def keepLog (directory : String) (lines : List LogLine) : IO Unit := do
  let handle ← IO.FS.Handle.mk ⟨directory ++ "/" ++ FileTree.sessionFile⟩ .append
  for line in lines do
    handle.putStrLn line.text

end Program

end AttributeOptimizer

open AttributeOptimizer in
/-- The program. -/
def main (args : List String) : IO UInt32 := do
  let around ← match Arguments.parse args with
    | .optimize a => Program.surroundings a
    | _ => pure ⟨fun _ => none, [], fun _ => true, none⟩
  let result := Command.run args around
  let stderr ← IO.getStderr
  match Arguments.parse args with
  | .optimize a =>
    match a.logDir, result.session with
    | some directory, some lines =>
      Program.keepLog directory lines
      stderr.putStrLn s!"Logging to file: {directory}"
    | some _, none =>
      if result.exitCode = 1 then stderr.putStrLn "Failed to initialize logger"
    | _, _ => pure ()
  | .misuse => stderr.putStrLn "For more information, try '--help'."
  | _ => pure ()
  for line in result.log do
    stderr.putStrLn (Program.shownLine result.coloured line)
  IO.print result.output
  return result.exitCode.toUInt32
