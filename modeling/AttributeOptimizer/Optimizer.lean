import AttributeOptimizer.Expression.Children
import AttributeOptimizer.Journal

set_option autoImplicit false

/-! # The optimizer

A pass makes one attempt at every node of a tree, bottom-up: children are optimized and relinked
before their node gets its attempt, and what replaces a node is looked at again in the next pass
only. A run repeats passes until one changes nothing, or until no pass is left. -/

namespace AttributeOptimizer

/-- The settings of a run. -/
structure Settings where
  /-- The greatest number of passes before a run gives up on a fixpoint. -/
  maxPasses : Nat
  /-- Whether every change is recorded, and not only counted. -/
  recordChanges : Bool
  deriving DecidableEq, Repr

namespace Settings

/-- Sixteen passes, with a record of every change. -/
def standard : Settings := ⟨16, true⟩

end Settings

/-- The result of a run. -/
structure Outcome where
  /-- The optimized tree. -/
  tree : Expression
  /-- The number of passes that were made. -/
  passes : Nat
  /-- Whether the last pass changed nothing. -/
  reachedFixpoint : Bool
  /-- The recorded changes, oldest first. -/
  changes : List ChangeRecord

/-- Work that adds to a journal and may come upon a defect, which ends it. What was taken down until
    then stays in the journal. -/
abbrev Journaled := ExceptT Defect (StateM Journal)

namespace Journaled

variable {α : Type}

/-- What work that starts from a journal comes to, and the journal at its end, also where that is a
    defect. -/
def carryOut (work : Journaled α) (j : Journal) : Except Defect α × Journal :=
  ((ExceptT.run work).run j).run

/-- The result of work that starts from a journal, with the journal at its end, or a defect. -/
def run (work : Journaled α) (j : Journal) : Except Defect (α × Journal) :=
  match work.carryOut j with
  | (.ok result, j') => .ok (result, j')
  | (.error defect, _) => .error defect

end Journaled

namespace Expression

/-- One attempt at a node, taken down in the journal. -/
def attempt (node : Expression) : Journaled Revision := do
  modify (·.noteRemark node.remark?)
  match ← node.simplify with
  | .unchanged => return .kept
  | .changed replacement tag description =>
    modify (·.change tag node.location description)
    return .replaced replacement

/-- One pass over a tree, taken down in the journal. The very tree is kept if no attempt changes
    anything. -/
def revisePass (tree : Expression) : Journaled Revision := bottomUp attempt tree

/-- One pass over a tree, taken down in the journal. -/
def pass (tree : Expression) : Journaled Expression := do
  return (← tree.revisePass).node tree

/-- Makes passes over a tree, at most as many as are left, until one changes nothing; tells whether
    one did. -/
def passes : Nat → Expression → Journaled (Expression × Bool)
  | 0, tree => return (tree, false)
  | left + 1, tree => do
    modify Journal.startPass
    let tree ← tree.pass
    modify fun j => j.note (.passEnded j.pass j.changesInPass)
    if (← get).changesInPass = 0 then return (tree, true)
    else passes left tree

/-- Makes passes over a tree to a fixpoint or to the end of the settings, and notes which. -/
def passesToEnd (settings : Settings) (tree : Expression) : Journaled Outcome := do
  let (tree, reachedFixpoint) ← passes settings.maxPasses tree
  modify fun j => j.note
    (if reachedFixpoint then .reachedFixpoint j.pass else .stoppedEarly j.pass)
  let j ← get
  return ⟨tree, j.pass, reachedFixpoint, j.records.toList⟩

/-- A run over a tree from the beginning, with its journal. -/
def run (settings : Settings) (tree : Expression) : Except Defect (Outcome × Journal) :=
  (passesToEnd settings tree).run (Journal.new settings.recordChanges)

/-- Optimizes a tree. -/
def optimize (settings : Settings) (tree : Expression) : Except Defect Outcome :=
  (run settings tree).map Prod.fst

end Expression

end AttributeOptimizer
