import AttributeOptimizer.CommandLine.Command
import AttributeOptimizer.Proofs.Bookkeeping
import AttributeOptimizer.Proofs.ChangeReport
import AttributeOptimizer.Proofs.SiblingOrder

set_option autoImplicit false

/-! # The journal does not interfere

What a pass leaves of a tree, and the changes that it takes down, are the same from every journal.
The changes stand in post-order: those of the children, one child after the other, then at most one
of the node, at its own location (`changeLog_postorder`).

Hence a run that records its changes and one that only counts them differ in the records alone
(`unrecorded_outcome`), and so do the runs of a command with and without a trace
(`unrecorded_outcome_trace`). -/

namespace AttributeOptimizer

/-- The outcome without the records of its changes. -/
def Outcome.unrecorded (o : Outcome) : Outcome := { o with changes := [] }

namespace Expression

/-! ## The order of the changes -/

/-- A node reports a change at its own location. -/
theorem change?_eq_map (node : Expression) :
    ∃ own : Option (ChangeTag × String),
      node.change? = own.map fun c => (c.1, node.location, c.2) := by
  rw [change?]
  cases node.answer with
  | unchanged => exact ⟨none, rfl⟩
  | changed replacement tag description => exact ⟨some (tag, description), rfl⟩

/-- A pass reports the changes of the children, one child after the other, and then one of the node
    itself if it rewrites it. -/
theorem changeLog_postorder (e : Expression) :
    ∃ own : Option (ChangeTag × String),
      e.changeLog =
        e.children.flatMap changeLog ++ (own.map fun c => (c.1, e.location, c.2)).toList ∧
      (own.isSome ↔ e.IsRewritten) := by
  obtain ⟨own, hown⟩ := change?_eq_map (e.overChildren afterPass)
  rw [location_overChildren] at hown
  refine ⟨own, ?_, ?_⟩
  · rw [changeLog_eq, hown]
  · rw [isRewritten_iff, hown, Option.ne_none_iff_isSome, Option.isSome_map]

/-! ## Runs with and without records -/

theorem unrecorded_outcomeFrom (recording : Bool) (done left : Nat) (tree : Expression) :
    (outcomeFrom recording done left tree).unrecorded = outcomeFrom false done left tree := by
  induction left generalizing done tree with
  | zero => rfl
  | succ left ih =>
      rw [outcomeFrom, outcomeFrom, ← ih]
      split <;> rfl

/-- Whether changes are recorded matters to the records only. -/
theorem unrecorded_outcome (settings : Settings) (tree : Expression) :
    (tree.outcome settings).unrecorded = tree.outcome { settings with recordChanges := false } :=
  unrecorded_outcomeFrom settings.recordChanges 0 settings.maxPasses tree

end Expression

/-! ## The command with and without a trace -/

namespace Command

/-- The outcome that the command prints, or the message about a mistake. -/
def outcome (a : Arguments) (around : Surroundings) : Except String Outcome := do
  let settings ← settings a around
  let tree ← tree a around
  (tree.optimize settings).mapError Defect.message

/-- What the command prints is its outcome: all of it with a trace, else the tree alone. -/
theorem optimize_eq_outcome (a : Arguments) (around : Surroundings) :
    (optimize a around).1 = (outcome a around).map (outputOf a.trace) := by
  unfold optimize outcome
  cases settings a around with
  | error message => rfl
  | ok settings =>
      cases tree a around with
      | error message => rfl
      | ok tree =>
          simp only [bind, Except.bind, pure, Except.pure, Expression.optimize, Expression.run,
            map_fst_run]
          cases ((tree.passesToEnd settings).carryOut (.new settings.recordChanges)).1 with
          | error defect => rfl
          | ok outcome => rfl

/-- A trace turns recording on, and asks for nothing else. -/
theorem settings_trace (a : Arguments) (around : Surroundings) :
    settings { a with trace := true } around =
      (settings { a with trace := false } around).map fun s => { s with recordChanges := true } := by
  unfold settings
  cases a.config with
  | none => rcases a.maxPasses with - | - | maxPasses <;> rfl
  | some path =>
      cases hfile : Settings.ofFile (around.file path) with
      | error fault => simp [hfile, Except.mapError, Except.map, bind, Except.bind]
      | ok settings =>
          rcases a.maxPasses with - | - | maxPasses <;>
            simp [hfile, Except.mapError, Except.map, bind, Except.bind, pure, Except.pure]

theorem unrecorded_outcome_trace (a : Arguments) (around : Surroundings) :
    (outcome { a with trace := true } around).map Outcome.unrecorded =
      (outcome { a with trace := false } around).map Outcome.unrecorded := by
  unfold outcome
  rw [settings_trace a around]
  cases settings { a with trace := false } around with
  | error message => rfl
  | ok settings =>
      have htree : tree { a with trace := true } around = tree { a with trace := false } around := rfl
      rw [htree]
      cases tree { a with trace := false } around with
      | error message => rfl
      | ok tree =>
          have hequal : (tree.outcome { settings with recordChanges := true }).unrecorded =
              (tree.outcome settings).unrecorded := by
            rw [Expression.unrecorded_outcome, Expression.unrecorded_outcome]
          simp only [Except.map, bind, Except.bind, Expression.optimize_eq, Except.mapError, hequal]

end Command

namespace Expression

/-- From every journal a pass goes through and leaves the same in the place of the tree, and it
    takes the same changes down after those that are there: the changes of the children, one child
    after the other, then at most one of the node, at its own location. Visited in any order,
    siblings leave the same, and the same changes in another order. Recording changes, as a command
    does for a trace, takes nothing from the outcome of a run and adds the records alone. -/
theorem journal_does_not_interfere (tree : Expression) :
    (∀ j : Journal, ∃ j', tree.revisePass.run j = .ok (tree.passed, j') ∧
      tree.pass.run j = .ok (tree.passed.node tree, j') ∧ j.TakesDown tree.changeLog j') ∧
    (∃ own : Option (ChangeTag × String),
      tree.changeLog =
        tree.children.flatMap changeLog ++ (own.map fun c => (c.1, tree.location, c.2)).toList ∧
      (own.isSome ↔ tree.IsRewritten)) ∧
    passInOrder .inTurn [] tree = tree.revisePass ∧
    (∀ (order : SiblingOrder) (j : Journal), ∃ log j', log.Perm tree.changeLog ∧
      (passInOrder order [] tree).run j = .ok (tree.passed, j') ∧ j.TakesDown log j') ∧
    (∀ maxPasses : Nat, ∃ o, optimize ⟨maxPasses, true⟩ tree = .ok o ∧
      optimize ⟨maxPasses, false⟩ tree = .ok o.unrecorded) ∧
    ∀ (a : Arguments) (around : Surroundings),
      (Command.optimize a around).1 =
        (Command.outcome a around).map (Command.outputOf a.trace) ∧
      (Command.outcome { a with trace := true } around).map Outcome.unrecorded =
        (Command.outcome { a with trace := false } around).map Outcome.unrecorded := by
  refine ⟨?_, changeLog_postorder tree, passInOrder_inTurn [] tree, ?_, ?_, ?_⟩
  · intro j
    exact ⟨_, revisePass_run tree j, pass_run tree j, j.takesDown_attemptAll tree.attempts⟩
  · intro order j
    have hperm := (attemptsInOrder_perm order [] tree).filterMap change?
    exact ⟨_, _, hperm, passInOrder_run order [] tree j, j.takesDown_attemptAll _⟩
  · intro maxPasses
    refine ⟨_, optimize_eq _ tree, ?_⟩
    rw [optimize_eq, unrecorded_outcome]
  · intro a around
    exact ⟨Command.optimize_eq_outcome a around, Command.unrecorded_outcome_trace a around⟩

end Expression

end AttributeOptimizer
