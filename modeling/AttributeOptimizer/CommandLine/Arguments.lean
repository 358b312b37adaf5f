import AttributeOptimizer.Text.Natural

set_option autoImplicit false

/-! # Command line arguments

The command takes at most one input path and a number of options. An option with a value takes it
from the next argument or after an equals sign; a value of its own argument may not look like an
option. No option may be given twice. Everything after `--` is a path. The requests for help and for
the version are answered where they are met, so only mistakes before them count. -/

namespace AttributeOptimizer

/-- What the arguments ask for. -/
structure Arguments where
  /-- The path of the tree to read; the standard input without one. -/
  input : Option String
  /-- The path of the settings. -/
  config : Option String
  /-- The greatest number of passes, in place of that of the settings. -/
  maxPasses : Option Nat
  /-- The filter for the log on the standard error. -/
  logLevel : Option String
  /-- The directory for a session log. -/
  logDir : Option String
  /-- Whether the log is written without colours. -/
  noColor : Bool
  /-- Whether the changes are printed with the tree. -/
  trace : Bool
  deriving DecidableEq, Repr

/-- What a command line amounts to. -/
inductive Request where
  /-- Optimize a tree. -/
  | optimize (arguments : Arguments)
  /-- Print the help. -/
  | help
  /-- Print the version. -/
  | version
  /-- The arguments make no sense. -/
  | misuse
  deriving DecidableEq, Repr

namespace Arguments

/-- The arguments of a bare command. -/
def none : Arguments := ⟨.none, .none, .none, .none, .none, false, false⟩

/-- The options that take a value. -/
inductive ValueOption where
  | config
  | maxPasses
  | logLevel
  | logDir
  deriving DecidableEq, Repr

/-- The option with a value that a name after two dashes stands for. -/
def ValueOption.ofName? : String → Option ValueOption
  | "config" => some .config
  | "max-passes" => some .maxPasses
  | "log-level" => some .logLevel
  | "log-dir" => some .logDir
  | _ => Option.none

/-- Fills a place that must be empty. -/
def fill {α : Type} (place : Option α) (value : α) : Option (Option α) :=
  if place.isSome then Option.none else some (some value)

/-- A path, which may not be empty. -/
def path? (text : String) : Option String := if text.isEmpty then Option.none else some text

/-- A count of at most 64 bits. -/
def count? (text : String) : Option Nat :=
  (Text.natural? text).filter (· < UInt64.size)

/-- Sets an option to a value. -/
def set? (a : Arguments) (option : ValueOption) (value : String) : Option Arguments :=
  match option with
  | .config => do return { a with config := ← fill a.config (← path? value) }
  | .maxPasses => do return { a with maxPasses := ← fill a.maxPasses (← count? value) }
  | .logLevel => do return { a with logLevel := ← fill a.logLevel value }
  | .logDir => do return { a with logDir := ← fill a.logDir (← path? value) }

/-- Adds a path. -/
def addPath? (a : Arguments) (text : String) : Option Arguments := do
  return { a with input := ← fill a.input (← path? text) }

/-- Adds paths. -/
def addPaths? : Arguments → List String → Option Arguments
  | a, [] => some a
  | a, text :: rest => (a.addPath? text).bind (addPaths? · rest)

/-- The kinds of arguments. -/
inductive Shape where
  /-- An option with its name, and its value if that follows an equals sign. -/
  | long (name : String) (value : Option String)
  /-- Options of one letter, the first of them given. -/
  | short (first : Char)
  /-- The mark after which everything is a path. -/
  | pathsFollow
  /-- A path or the value of an option. -/
  | plain

/-- The kind of an argument. -/
def shape (argument : String) : Shape :=
  match argument.toList with
  | ['-', '-'] => .pathsFollow
  | '-' :: '-' :: rest =>
    let name := rest.takeWhile (· ≠ '=')
    .long (String.ofList name)
      (if rest.contains '=' then some (String.ofList (rest.drop (name.length + 1)))
       else Option.none)
  | '-' :: c :: _ => .short c
  | _ => .plain

/-- Whether an argument can be the value of the option before it. -/
def isPlain (argument : String) : Bool :=
  match shape argument with
  | .plain => true
  | _ => false

/-- Continues with the rest of the arguments unless there was a mistake. -/
def orMisuse (a : Option Arguments) (next : Arguments → Request) : Request :=
  match a with
  | some a => next a
  | Option.none => .misuse

/-- Reads arguments from left to right. -/
def parseFrom (a : Arguments) : List String → Request
  | [] => .optimize a
  | argument :: rest =>
    match shape argument with
    | .pathsFollow => orMisuse (a.addPaths? rest) .optimize
    | .plain => orMisuse (a.addPath? argument) (parseFrom · rest)
    | .short 'h' => .help
    | .short 'V' => .version
    | .short _ => .misuse
    | .long "help" Option.none => .help
    | .long "version" Option.none => .version
    | .long "no-color" Option.none =>
      if a.noColor then .misuse else parseFrom { a with noColor := true } rest
    | .long "trace" Option.none =>
      if a.trace then .misuse else parseFrom { a with trace := true } rest
    | .long name value =>
      match ValueOption.ofName? name, value, rest with
      | some option, some value, rest => orMisuse (a.set? option value) (parseFrom · rest)
      | some option, Option.none, value :: rest =>
        if isPlain value then orMisuse (a.set? option value) (parseFrom · rest) else .misuse
      | _, _, _ => .misuse

/-- Reads the arguments of the command. -/
def parse (arguments : List String) : Request := parseFrom none arguments

end Arguments

end AttributeOptimizer
