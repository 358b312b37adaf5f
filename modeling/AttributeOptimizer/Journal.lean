import AttributeOptimizer.ChangeTag
import AttributeOptimizer.Simplification.Remark

set_option autoImplicit false

/-! # The journal of a run

A journal counts the passes of a run and the changes within the current pass, keeps a record of
every change if it is asked to, and notes everything that a log may want to show in the order in
which it happened. The rules never read it. -/

namespace AttributeOptimizer

/-- One change that a pass made. -/
structure ChangeRecord where
  /-- The number of the pass, the first being 1. -/
  pass : Nat
  /-- The kind of the change. -/
  tag : ChangeTag
  /-- The location of the node that was replaced. -/
  location : Location
  /-- The justification of the change. -/
  message : String
  deriving DecidableEq, Repr

/-- What a log may want to show of a run. -/
inductive Event where
  /-- An attempt at a node had something to say. -/
  | remark (remark : Remark)
  /-- A node was replaced. -/
  | change (tag : ChangeTag) (location : Location) (message : String)
  /-- A pass ended after a number of changes. -/
  | passEnded (pass changes : Nat)
  /-- The run ended because its last pass changed nothing. -/
  | reachedFixpoint (passes : Nat)
  /-- The run ended because no pass was left. -/
  | stoppedEarly (passes : Nat)
  deriving DecidableEq, Repr

/-- The journal of a run. -/
structure Journal where
  /-- Whether changes are recorded, and not only counted. -/
  recording : Bool
  /-- The number of passes begun. -/
  pass : Nat
  /-- The number of changes since the current pass began. -/
  changesInPass : Nat
  /-- The recorded changes, oldest first. -/
  records : Array ChangeRecord
  /-- All that a log may want to show, oldest first. -/
  events : Array Event
  deriving Repr

namespace Journal

/-- The journal of a run that has not begun. -/
def new (recording : Bool) : Journal := ⟨recording, 0, 0, #[], #[]⟩

/-- Begins a pass. -/
def startPass (j : Journal) : Journal :=
  { j with pass := j.pass + 1, changesInPass := 0 }

/-- Notes an event for the log. -/
def note (j : Journal) (event : Event) : Journal :=
  { j with events := j.events.push event }

/-- Notes the remark of an attempt, if it makes one. -/
def noteRemark (j : Journal) (remark : Option Remark) : Journal :=
  match remark with
  | none => j
  | some remark => j.note (.remark remark)

/-- Takes down one change. -/
def change (j : Journal) (tag : ChangeTag) (location : Location) (message : String) : Journal :=
  let counted := { j.note (.change tag location message) with changesInPass := j.changesInPass + 1 }
  if j.recording then
    { counted with records := j.records.push ⟨j.pass, tag, location, message⟩ }
  else counted

@[simp] theorem pass_change (j : Journal) (tag : ChangeTag) (location : Location)
    (message : String) : (j.change tag location message).pass = j.pass := by
  simp only [change]; split <;> rfl

@[simp] theorem changesInPass_change (j : Journal) (tag : ChangeTag) (location : Location)
    (message : String) :
    (j.change tag location message).changesInPass = j.changesInPass + 1 := by
  simp only [change]; split <;> rfl

@[simp] theorem recording_change (j : Journal) (tag : ChangeTag) (location : Location)
    (message : String) : (j.change tag location message).recording = j.recording := by
  simp only [change]; split <;> rfl

theorem records_change (j : Journal) (tag : ChangeTag) (location : Location)
    (message : String) :
    (j.change tag location message).records =
      if j.recording then j.records.push ⟨j.pass, tag, location, message⟩ else j.records := by
  simp only [change]; split <;> rfl

end Journal

end AttributeOptimizer
