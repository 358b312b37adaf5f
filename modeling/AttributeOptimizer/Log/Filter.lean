import AttributeOptimizer.Log.Directive
import AttributeOptimizer.Log.Line

set_option autoImplicit false

/-! # Log filters

A filter is a list of directives separated by commas. Of the directives that apply to a line the one
with the longest target decides, of those for one target one that names a field before one that
names none, and of equal ones the last. Directives for spans admit nothing here, since no line
belongs to a span.

A filter is read leniently or strictly: malformed directives are ignored (`LogFilter.parse?`), or
one of them leaves nothing of the filter (`LogFilter.parseStrictly`). Where there is no directive,
errors are shown. A strict reading is the lenient one too (`LogFilter.parse?_of_parseStrictly`). -/

namespace AttributeOptimizer

namespace Directive

/-- The field that every line has: its text. -/
def lineField : String := "message"

/-- The rank among the directives that apply to a line, and the verbosity, of a directive that
    applies to lines of a target. -/
def rankFor? (target : String) : Directive → Option (Nat × Nat)
  | .spans => none
  | .lines path field verbosity =>
    if path.toList.isPrefixOf target.toList && field.all (· = lineField) then
      some (2 * path.length + (if field.isSome then 1 else 0), verbosity)
    else none

end Directive

/-- Which lines a log shows. -/
structure LogFilter where
  /-- The directives, in the order in which they were given. -/
  directives : List Directive
  deriving Repr

namespace LogFilter

/-- Lines up to a verbosity from every target. -/
def upTo (level : LogLevel) : LogFilter := ⟨[.lines "" none level.verbosity]⟩

/-- The directives among texts; none if one of the texts has no reading at all. -/
def readAll? : List (List Char) → Option (List Directive)
  | [] => some []
  | text :: rest =>
    match Directive.read text with
    | .ok directive => (readAll? rest).map (directive :: ·)
    | .error .malformed => readAll? rest
    | .error .unreachable => none

/-- The filter of some directives; without any it shows errors. -/
def ofDirectives (directives : List Directive) : LogFilter :=
  if directives.isEmpty then upTo .error else ⟨directives⟩

/-- Reads a filter, without its malformed directives; none if one of the directives has no reading
    at all. -/
def parse? (text : String) : Option LogFilter :=
  (readAll? (text.toList.splitOn ',')).map ofDirectives

/-- Reads a filter up to the first fault of a directive. Nothing need stand between two commas. -/
def parseStrictly (text : String) : Except DirectiveFault LogFilter :=
  (((text.toList.splitOn ',').filter (!·.isEmpty)).mapM Directive.read).map ofDirectives

/-- Steps that succeed one after the other each succeed. -/
theorem exists_of_bind_eq_ok {ε α β : Type} {x : Except ε α} {f : α → Except ε β} {b : β}
    (h : x >>= f = .ok b) : ∃ a, x = .ok a ∧ f a = .ok b := by
  cases x with
  | error e => cases h
  | ok a => exact ⟨a, rfl, h⟩

/-- Where all directives that are there can be read, none is ignored. -/
theorem readAll?_of_mapM_read {texts : List (List Char)} {directives : List Directive}
    (h : (texts.filter (!·.isEmpty)).mapM Directive.read = .ok directives) :
    readAll? texts = some directives := by
  induction texts generalizing directives with
  | nil =>
      cases h
      rfl
  | cons text rest ih =>
      cases text with
      -- The empty text is no directive, and is ignored as such.
      | nil => exact ih h
      | cons c text =>
          rw [List.filter_cons_of_pos (by rfl), List.mapM_cons] at h
          obtain ⟨directive, hread, h⟩ := exists_of_bind_eq_ok h
          obtain ⟨others, hothers, h⟩ := exists_of_bind_eq_ok h
          cases h
          rw [readAll?, hread, ih hothers]
          rfl

/-- A filter that is read strictly is read leniently in the same way. -/
theorem parse?_of_parseStrictly {text : String} {filter : LogFilter}
    (h : parseStrictly text = .ok filter) : parse? text = some filter := by
  rw [parseStrictly] at h
  cases hread : ((text.toList.splitOn ',').filter (!·.isEmpty)).mapM Directive.read with
  | error fault =>
      rw [hread] at h
      cases h
  | ok directives =>
      rw [hread] at h
      cases h
      rw [parse?, readAll?_of_mapM_read hread]
      rfl

/-- Of two directives, by rank and verbosity, the one that decides. -/
def stronger (best new : Option (Nat × Nat)) : Option (Nat × Nat) :=
  match best, new with
  | some (rank, _), some (newRank, _) => if newRank < rank then best else new
  | best, none => best
  | none, new => new

/-- Whether a filter shows a line. -/
def admits (filter : LogFilter) (line : LogLine) : Bool :=
  let ranks := filter.directives.map (Directive.rankFor? line.target.path)
  match ranks.foldl stronger none with
  | some (_, verbosity) => line.level.verbosity ≤ verbosity
  | none => false

end LogFilter

end AttributeOptimizer
