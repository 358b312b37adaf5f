import AttributeOptimizer.CommandLine.Arguments
import AttributeOptimizer.Format.Results
import AttributeOptimizer.Json.Printer
import AttributeOptimizer.Log.Filter
import AttributeOptimizer.Text.Utf8

set_option autoImplicit false

/-! # The command

What the command does with its arguments and with what it finds around it, as a function: the exit
code, the text on the standard output, the lines of the log on the standard error, and those of the
session log if one is kept. -/

namespace AttributeOptimizer

/-- The contents of a file, or nothing if it cannot be read. -/
abbrev FileContents := Option (List UInt8)

/-! ## Settings files -/

/-- What is wrong with a file of settings. -/
inductive SettingsFault where
  /-- There is no such text file. -/
  | unreadable
  /-- It holds no settings. -/
  | invalid
  /-- It allows no pass. -/
  | noPasses
  deriving DecidableEq, Repr

namespace SettingsFault

/-- The message about the file at a path. -/
def message (path : String) : SettingsFault → String
  | unreadable => s!"Failed to read optimizer config {path}"
  | invalid => s!"Invalid optimizer config {path}"
  | noPasses => s!"{path}: max_passes must be at least 1"

end SettingsFault

namespace Settings

/-- Reads the settings in a file, which must allow at least one pass. -/
def ofFile (contents : FileContents) : Except SettingsFault Settings :=
  match contents.bind Text.decode? with
  | none => .error .unreadable
  | some text =>
    match parse? text with
    | none => .error .invalid
    | some settings => if settings.maxPasses = 0 then .error .noPasses else .ok settings

end Settings

/-! ## Running the command -/

/-- What the command finds around it. -/
structure Surroundings where
  /-- The contents of the file at a path. -/
  file : String → FileContents
  /-- The standard input. -/
  input : List UInt8
  /-- Whether a directory for logs can be made at a path. -/
  canKeepLogIn : String → Bool
  /-- The value of the variable for the log filter (`Command.filterVariable`), if it is set and is
      text. -/
  filterVariable : Option String := none

/-- What the command leaves behind. -/
structure Result where
  /-- The exit code. -/
  exitCode : UInt8
  /-- The text on the standard output. -/
  output : String
  /-- Whether the log on the standard error is coloured. -/
  coloured : Bool
  /-- The lines of the log on the standard error. -/
  log : List LogLine
  /-- The lines of the session log, if one is kept. -/
  session : Option (List LogLine)

namespace Command

/-- The name of the variable that may hold the filter for the log on the standard error. -/
def filterVariable : String := "RUST_LOG"

/-- The line that the version request prints. -/
def versionText : String := "attrfold 0.1.0\n"

/-- The text that the help request prints. -/
def helpText : String :=
  "Simplify attribute lookups and builtin attribute calls in an expression tree

Usage: attrfold [OPTIONS] [INPUT]

Arguments:
  [INPUT]  Expression tree as JSON; reads stdin when omitted

Options:
      --config <CONFIG>          Optimizer config file (JSON)
      --max-passes <MAX_PASSES>  Override the pass limit from the config
      --log-level <LOG_LEVEL>    Log level for stderr (otherwise RUST_LOG, then \"info\")
      --no-color                 Disable ANSI colors in stderr output
      --log-dir <LOG_DIR>        Also write a DEBUG-level session log into this directory
      --trace                    Print the change log next to the optimized tree
  -h, --help                     Print help
  -V, --version                  Print version
"

/-- The settings that the arguments ask for, or the message about a mistake. Printing the changes
    takes recording them. -/
def settings (a : Arguments) (around : Surroundings) : Except String Settings := do
  let settings ←
    match a.config with
    | none => .ok Settings.standard
    | some path => (Settings.ofFile (around.file path)).mapError (SettingsFault.message path)
  let settings ←
    match a.maxPasses with
    | none => .ok settings
    | some 0 => .error "--max-passes must be at least 1"
    | some maxPasses => .ok { settings with maxPasses }
  return { settings with recordChanges := settings.recordChanges || a.trace }

/-- The tree that the arguments name, or the message about a mistake. -/
def tree (a : Arguments) (around : Surroundings) : Except String Expression := do
  let text ←
    match a.input with
    | some path =>
      match (around.file path).bind Text.decode? with
      | some text => .ok text
      | none => .error s!"Failed to read {path}"
    | none =>
      match Text.decode? around.input with
      | some text => .ok text
      | none => .error "Failed to read stdin"
  match Expression.parse? text with
  | some tree => .ok tree
  | none => .error "Input is not a valid expression tree"

/-- The text of an outcome: the whole record, or the tree alone with its fields sorted by name. -/
def outputOf (trace : Bool) (outcome : Outcome) : String :=
  let document :=
    if trace then outcome.toJson
    else Json.sortNames (.obj [("tree", outcome.tree.toJson)])
  document.pretty ++ "\n"

/-- The lines of the log of a run over a tree: that it begins, what its journal holds, and how it
    ended, where no defect ended it. -/
def logOf (tree : Expression) (result : Except Defect Outcome) (journal : Journal) : List LogLine :=
  let beginning := s!"Optimizing {tree.kind.text} at {tree.location.text}"
  let ending :=
    match result with
    | .ok outcome => [s!"{outcome.changes.length} changes in {outcome.passes} passes " ++
        s!"(fixpoint: {outcome.reachedFixpoint})"]
    | .error _ => []
  ⟨.info, .command, beginning⟩ :: journal.events.toList.map Event.logLine
    ++ ending.map (⟨.info, .command, ·⟩)

/-- The text on the standard output, or the message about a mistake or a defect, with the lines of
    the log before it. -/
def optimize (a : Arguments) (around : Surroundings) : Except String String × List LogLine :=
  let prepared : Except String (Settings × Expression) := do
    return (← settings a around, ← tree a around)
  match prepared with
  | .error message => (.error message, [])
  | .ok (settings, tree) =>
    let (result, journal) :=
      (tree.passesToEnd settings).carryOut (Journal.new settings.recordChanges)
    ((result.map (outputOf a.trace)).mapError Defect.message, logOf tree result journal)

/-- The filter for the log on the standard error: that of the arguments; without one, that of the
    variable if it can be read strictly, and lines up to the level `info` otherwise. None if reading
    it comes to a directive that has no reading at all. -/
def logFilter? (a : Arguments) (around : Surroundings) : Option LogFilter :=
  match a.logLevel, around.filterVariable with
  | some text, _ => LogFilter.parse? text
  | none, none => some (.upTo .info)
  | none, some text =>
    match LogFilter.parseStrictly text with
    | .ok filter => some filter
    | .error .malformed => some (.upTo .info)
    | .error .unreachable => none

/-- The command with well-formed arguments. A filter without a reading ends it at once, and so does
    a log directory that cannot be made. -/
def runWith (a : Arguments) (around : Surroundings) : Result :=
  match logFilter? a around, a.logDir.all around.canKeepLogIn with
  | none, _ => ⟨101, "", !a.noColor, [], none⟩
  | some _, false => ⟨1, "", !a.noColor, [], none⟩
  | some filter, true =>
    let (outcome, lines) := optimize a around
    let finish (exitCode : UInt8) (output : String) (lines : List LogLine) : Result :=
      ⟨exitCode, output, !a.noColor, lines.filter filter.admits,
        a.logDir.map fun _ => lines.filter (LogFilter.upTo .debug).admits⟩
    match outcome with
    | .ok output => finish 0 output lines
    | .error message => finish 1 "" (lines ++ [⟨.error, .command, message⟩])

/-- The command. -/
def run (arguments : List String) (around : Surroundings) : Result :=
  match Arguments.parse arguments with
  | .help => ⟨0, helpText, false, [], none⟩
  | .version => ⟨0, versionText, false, [], none⟩
  | .misuse => ⟨2, "", false, [], none⟩
  | .optimize a => runWith a around

end Command

end AttributeOptimizer
