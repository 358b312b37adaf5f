import AttributeOptimizer.Format.Tree
import AttributeOptimizer.Json.Reader
import AttributeOptimizer.Optimizer

set_option autoImplicit false

/-! # Documents of settings and results

Settings may leave out either field, but know no others. A change record is an ordinary record, and
an outcome is only written. -/

namespace AttributeOptimizer

namespace Settings

/-- Settings as a record. -/
def toJson (s : Settings) : Json :=
  .obj [("max_passes", .int s.maxPasses), ("record_changes", .bool s.recordChanges)]

/-- The settings with the given fields, standard ones where a field is absent. -/
def assemble? (maxPasses recordChanges : Option Json) : Option Settings := do
  let maxPasses ← match maxPasses with
    | none => some standard.maxPasses
    | some j => j.count?
  let recordChanges ← match recordChanges with
    | none => some standard.recordChanges
    | some j => j.bool?
  return ⟨maxPasses, recordChanges⟩

/-- Reads settings. -/
def ofJson? : Json → Option Settings
  | .obj members =>
    if members.all fun m => m.1 = "max_passes" || m.1 = "record_changes" then do
      assemble? (← Json.only? members "max_passes") (← Json.only? members "record_changes")
    else none
  | .arr [] => assemble? none none
  | .arr [maxPasses] => assemble? (some maxPasses) none
  | .arr [maxPasses, recordChanges] => assemble? (some maxPasses) (some recordChanges)
  | _ => none

end Settings

namespace ChangeRecord

/-- A change record as a record. -/
def toJson (r : ChangeRecord) : Json :=
  .obj [("pass", .int r.pass), ("tag", r.tag.toJson), ("source_ref", r.location.toJson),
    ("message", .str r.message)]

/-- Reads a change record. -/
def ofJson? (j : Json) : Option ChangeRecord :=
  match j.fields? ["pass", "tag", "source_ref", "message"] with
  | some [some pass, some tag, some location, some message] => do
    return ⟨← pass.count?, ← ChangeTag.ofJson? tag, ← Location.ofJson? location,
      ← message.string?⟩
  | _ => none

end ChangeRecord

namespace Outcome

/-- An outcome as a record. -/
def toJson (o : Outcome) : Json :=
  .obj [("tree", o.tree.toJson), ("passes", .int o.passes),
    ("reached_fixpoint", .bool o.reachedFixpoint),
    ("changes", .arr (o.changes.map ChangeRecord.toJson))]

end Outcome

/-! ## Texts -/

namespace Json

/-- Reads a text whose every part matters: each must have a value, and nesting is limited. -/
def readWhole? {α : Type} (ofJson? : Json → Option α) (text : String) : Option α :=
  (parse? text).bind fun j => if j.isSound then ofJson? j else none

/-- Reads a text of which only the known fields matter. -/
def readFields? {α : Type} (ofJson? : Json → Option α) (text : String) : Option α :=
  (parse? text).bind ofJson?

end Json

/-- Reads a tree from the text of a document. -/
def Expression.parse? (text : String) : Option Expression :=
  Json.readWhole? Expression.ofJson? text

/-- Reads settings from the text of a document. -/
def Settings.parse? (text : String) : Option Settings :=
  Json.readFields? Settings.ofJson? text

end AttributeOptimizer
