import AttributeOptimizer.Journal
import AttributeOptimizer.Text.Quoted

set_option autoImplicit false

/-! # Log lines

A log line has a level, a target that names the part of the program it comes from, and a message.
Every event in a journal is one line. Control characters that could steer a terminal are
spelled out in a line, in two hexadecimal digits or, beyond ASCII, as a code point. -/

namespace AttributeOptimizer

/-- How much a log line matters. -/
inductive LogLevel where
  | error
  | warn
  | info
  | debug
  | trace
  deriving DecidableEq, Repr

namespace LogLevel

/-- The verbosity that a log needs in order to show the level. -/
def verbosity : LogLevel → Nat
  | error => 1
  | warn => 2
  | info => 3
  | debug => 4
  | trace => 5

/-- The name of the level in a line. -/
def name : LogLevel → String
  | error => "ERROR"
  | warn => "WARN"
  | info => "INFO"
  | debug => "DEBUG"
  | trace => "TRACE"

end LogLevel

/-- The part of the program that a log line comes from. -/
inductive LogTarget where
  /-- The command. -/
  | command
  /-- The evaluation of computations. -/
  | evaluation
  /-- The rules for attribute access. -/
  | attributeRules
  /-- The receivers of lookups and calls. -/
  | receivers
  /-- The journal. -/
  | journal
  /-- The optimizer. -/
  | optimizer
  deriving DecidableEq, Repr

namespace LogTarget

/-- The path by which lines and filters name a target. -/
def path : LogTarget → String
  | command => "attrfold"
  | evaluation => "attrfold::ir::helpers"
  | attributeRules => "attrfold::ir::optimization::attribute_nodes"
  | receivers => "attrfold::ir::optimization::receivers"
  | journal => "attrfold::ir::optimization::constraint_collection"
  | optimizer => "attrfold::ir::optimization::optimizer"

end LogTarget

/-- One line of a log. -/
structure LogLine where
  /-- How much it matters. -/
  level : LogLevel
  /-- Where it comes from. -/
  target : LogTarget
  /-- What it says. -/
  message : String
  deriving DecidableEq, Repr

namespace LogLine

/-- A character of a message as a line shows it. -/
def shownChar (c : Char) : List Char :=
  match c with
  | '\x07' => ['\\', 'x', '0', '7']
  | '\x08' => ['\\', 'x', '0', '8']
  | '\x0c' => ['\\', 'x', '0', 'c']
  | '\x1b' => ['\\', 'x', '1', 'b']
  | '\x7f' => ['\\', 'x', '7', 'f']
  | c => if 0x80 ≤ c.toNat ∧ c.toNat ≤ 0x9F then Text.codePointEscape c else [c]

/-- The message as a line shows it. -/
def shownMessage (line : LogLine) : String :=
  String.ofList (line.message.toList.flatMap shownChar)

/-- The text of a line: level, target and message. -/
def text (line : LogLine) : String :=
  line.level.name ++ " " ++ line.target.path ++ ": " ++ line.shownMessage

end LogLine

namespace Remark

/-- The part of the program that makes a remark. -/
def target : Remark → LogTarget
  | computedName _ | receiverHasEffects _ => .attributeRules
  | noConstantValue .. => .receivers
  | computationRaises .. => .evaluation

end Remark

namespace Event

/-- The log line of an event. -/
def logLine : Event → LogLine
  | remark r => ⟨.trace, r.target, r.message⟩
  | change tag location message =>
    ⟨.debug, .journal, s!"{location.text} [{tag.text}] {message}"⟩
  | passEnded pass changes => ⟨.debug, .optimizer, s!"Pass {pass} made {changes} changes"⟩
  | reachedFixpoint passes =>
    ⟨.info, .optimizer, s!"Optimization reached fixpoint after {passes} passes"⟩
  | stoppedEarly passes =>
    ⟨.warn, .optimizer,
      s!"Optimization stopped after {passes} passes without reaching a fixpoint"⟩

end Event

end AttributeOptimizer
