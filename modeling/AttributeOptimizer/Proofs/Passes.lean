import AttributeOptimizer.Optimizer
import AttributeOptimizer.Proofs.Rewriting

set_option autoImplicit false

/-! # What a pass does

A pass is told apart into what it makes of the tree, `Expression.afterPass`, and the nodes that it
makes an attempt at, in order, `Expression.attempts`. The journal is the fold of the attempts
(`pass_run`), no pass comes upon a defect, and a run repeats passes until one makes no change
(`passes_run_succ`). Attempts write the journal and never read it, so that what a pass makes of a
tree does not depend on the journal. -/

namespace AttributeOptimizer

/-- What an answer leaves in the place of the node that it is about. -/
def Simplification.revision : Simplification → Revision
  | unchanged => .kept
  | changed node _ _ => .replaced node

namespace Expression

/-! ## One attempt -/

/-- The answer of an attempt at the node. -/
def answer (node : Expression) : Simplification :=
  match node.simplify with
  | .ok s => s
  | .error _ => .unchanged

theorem simplify_eq_answer (node : Expression) : node.simplify = .ok node.answer := by
  have hspec := simplify_spec node
  unfold answer
  cases hresult : node.simplify with
  | error defect => rw [hresult] at hspec; cases hspec
  | ok s => rfl

theorem answer_eq_unchanged_iff {node : Expression} :
    node.answer = .unchanged ↔ node.Terminal := by
  rw [← simplify_eq_unchanged_iff, simplify_eq_answer, Except.ok.injEq]

theorem answer_eq_changed_iff {node replacement : Expression} {tag : ChangeTag}
    {description : String} :
    node.answer = .changed replacement tag description ↔
      Rewrites node replacement tag description := by
  rw [← simplify_eq_changed_iff, simplify_eq_answer, Except.ok.injEq]

/-- The node after an attempt at it. -/
def afterAttempt (node : Expression) : Expression := node.answer.node node

theorem afterAttempt_cases (node : Expression) :
    node.afterAttempt = node ∧ node.Terminal ∨
      ∃ tag description, Rewrites node node.afterAttempt tag description := by
  unfold afterAttempt
  cases h : node.answer with
  | unchanged => exact Or.inl ⟨rfl, answer_eq_unchanged_iff.1 h⟩
  | changed replacement tag description =>
      exact Or.inr ⟨tag, description, answer_eq_changed_iff.1 h⟩

theorem afterAttempt_of_terminal {node : Expression} (h : node.Terminal) :
    node.afterAttempt = node := by
  rw [afterAttempt, answer_eq_unchanged_iff.2 h]
  rfl

theorem afterAttempt_of_rewrites {node replacement : Expression} {tag : ChangeTag}
    {description : String} (h : Rewrites node replacement tag description) :
    node.afterAttempt = replacement := by
  rw [afterAttempt, answer_eq_changed_iff.2 h]
  rfl

/-! ## One pass over a tree -/

/-- What one pass leaves in the place of a tree. -/
def passed (e : Expression) : Revision := bottomUp (m := Id) (fun node => node.answer.revision) e

/-- The tree after one pass. -/
def afterPass (e : Expression) : Expression := e.passed.node e

/-- Relinked to the revisions of its children, a node is the node over what a pass makes of them. -/
theorem node_revise_passed (e : Expression) :
    (e.revise (e.children.map passed)).node e = e.overChildren afterPass :=
  node_revise passed e

theorem passed_eq (e : Expression) :
    e.passed =
      match (e.overChildren afterPass).answer.revision with
      | .kept => e.revise (e.children.map passed)
      | .replaced node => .replaced node := by
  have hvisit : e.passed = settle (m := Id) (fun node => node.answer.revision) e
      (e.children.map passed) := by
    -- Without a journal to write, the walks of the children are a plain map.
    conv_lhs => rw [passed, bottomUp_eq]
    exact congrArg (settle (m := Id) (fun node => node.answer.revision) e) (List.mapM_pure ..)
  rw [hvisit, ← node_revise_passed]
  rfl

/-- A pass makes an attempt at a node over what it makes of its children. -/
theorem afterPass_eq (e : Expression) : e.afterPass = (e.overChildren afterPass).afterAttempt := by
  rw [afterPass, passed_eq, afterAttempt]
  cases h : (e.overChildren afterPass).answer with
  | unchanged => exact node_revise_passed e
  | changed replacement tag description => rfl

/-- A pass leaves a terminal node over what it makes of the children, or applies a rule to it. -/
theorem afterPass_cases (e : Expression) :
    e.afterPass = e.overChildren afterPass ∧ (e.overChildren afterPass).Terminal ∨
      ∃ tag description, Rewrites (e.overChildren afterPass) e.afterPass tag description := by
  rw [afterPass_eq]
  exact afterAttempt_cases (e.overChildren afterPass)

/-- The nodes that a pass makes an attempt at, in order: those of the children, then the node over
    what the pass made of its children. -/
def attempts (e : Expression) : List Expression :=
  (e.children.attach.flatMap fun c => attempts c.1) ++ [e.overChildren afterPass]
termination_by e
decreasing_by exact sizeOf_lt_of_mem_children c.2

theorem attempts_eq (e : Expression) :
    e.attempts = e.children.flatMap attempts ++ [e.overChildren afterPass] := by
  rw [attempts, List.flatMap_subtype fun _ _ => rfl, List.unattach_attach]

/-- The change that an attempt at the node reports, if it makes one. -/
def change? (node : Expression) : Option (ChangeTag × Location × String) :=
  match node.answer with
  | .unchanged => none
  | .changed _ tag description => some (tag, node.location, description)

theorem change?_eq_none_iff {node : Expression} : node.change? = none ↔ node.Terminal := by
  rw [← answer_eq_unchanged_iff, change?]
  cases node.answer <;> simp

theorem change?_of_rewrites {node replacement : Expression} {tag : ChangeTag}
    {description : String} (h : Rewrites node replacement tag description) :
    node.change? = some (tag, node.location, description) := by
  rw [change?, answer_eq_changed_iff.2 h]

theorem filterMap_change?_cons (node : Expression) (rest : List Expression) :
    (node :: rest).filterMap change? = node.change?.toList ++ rest.filterMap change? := by
  rw [List.filterMap_cons]
  cases node.change? <;> rfl

/-- The changes that a pass reports, in order. -/
def changeLog (e : Expression) : List (ChangeTag × Location × String) :=
  e.attempts.filterMap change?

theorem changeLog_eq (e : Expression) :
    e.changeLog =
      e.children.flatMap changeLog ++ (e.overChildren afterPass).change?.toList := by
  rw [changeLog, attempts_eq, List.filterMap_append, List.filterMap_flatMap,
    filterMap_change?_cons, List.filterMap_nil, List.append_nil]
  rfl

end Expression

/-! ## The journal of a pass -/

/-- A change as the record of a pass. -/
def ChangeRecord.ofChange (pass : Nat) (change : ChangeTag × Location × String) : ChangeRecord :=
  ⟨pass, change.1, change.2.1, change.2.2⟩

namespace Journal

/-- The journal after an attempt at a node. -/
def attempt (j : Journal) (node : Expression) : Journal :=
  match node.answer with
  | .unchanged => j.noteRemark node.remark?
  | .changed _ tag description =>
    (j.noteRemark node.remark?).change tag node.location description

@[simp] theorem recording_noteRemark (j : Journal) (remark : Option Remark) :
    (j.noteRemark remark).recording = j.recording := by
  cases remark <;> rfl

@[simp] theorem pass_noteRemark (j : Journal) (remark : Option Remark) :
    (j.noteRemark remark).pass = j.pass := by
  cases remark <;> rfl

@[simp] theorem changesInPass_noteRemark (j : Journal) (remark : Option Remark) :
    (j.noteRemark remark).changesInPass = j.changesInPass := by
  cases remark <;> rfl

@[simp] theorem records_noteRemark (j : Journal) (remark : Option Remark) :
    (j.noteRemark remark).records = j.records := by
  cases remark <;> rfl

@[simp] theorem recording_attempt (j : Journal) (node : Expression) :
    (j.attempt node).recording = j.recording := by
  unfold attempt
  split <;> simp

@[simp] theorem pass_attempt (j : Journal) (node : Expression) :
    (j.attempt node).pass = j.pass := by
  unfold attempt
  split <;> simp

theorem changesInPass_attempt (j : Journal) (node : Expression) :
    (j.attempt node).changesInPass = j.changesInPass + node.change?.toList.length := by
  unfold attempt Expression.change?
  split <;> simp

/-- The records that a list of changes leaves in a journal. -/
def recordsOf (j : Journal) (changes : List (ChangeTag × Location × String)) :
    List ChangeRecord :=
  if j.recording then changes.map (.ofChange j.pass) else []

theorem records_attempt (j : Journal) (node : Expression) :
    (j.attempt node).records.toList = j.records.toList ++ j.recordsOf node.change?.toList := by
  unfold attempt Expression.change? recordsOf
  split
  · simp
  -- A remark is no record, so only the change itself counts.
  · simp only [records_change, recording_noteRemark, records_noteRemark, pass_noteRemark,
      Option.toList_some, List.map_cons, List.map_nil]
    split <;> simp [ChangeRecord.ofChange]

/-- The journal after attempts at nodes, one after the other. -/
def attemptAll (j : Journal) (nodes : List Expression) : Journal := nodes.foldl attempt j

theorem attemptAll_append (j : Journal) (earlier later : List Expression) :
    j.attemptAll (earlier ++ later) = (j.attemptAll earlier).attemptAll later :=
  List.foldl_append

@[simp] theorem recording_attemptAll (j : Journal) (nodes : List Expression) :
    (j.attemptAll nodes).recording = j.recording := by
  induction nodes generalizing j with
  | nil => rfl
  | cons node rest ih => exact (ih (j.attempt node)).trans (recording_attempt j node)

@[simp] theorem pass_attemptAll (j : Journal) (nodes : List Expression) :
    (j.attemptAll nodes).pass = j.pass := by
  induction nodes generalizing j with
  | nil => rfl
  | cons node rest ih => exact (ih (j.attempt node)).trans (pass_attempt j node)

/-- The counter rises by the number of the changes. -/
theorem changesInPass_attemptAll (j : Journal) (nodes : List Expression) :
    (j.attemptAll nodes).changesInPass =
      j.changesInPass + (nodes.filterMap Expression.change?).length := by
  induction nodes generalizing j with
  | nil => rfl
  | cons node rest ih =>
      rw [attemptAll, List.foldl_cons, ← attemptAll, ih, changesInPass_attempt,
        Expression.filterMap_change?_cons, List.length_append, Nat.add_assoc]

/-- The records of the changes follow those that were there. -/
theorem records_attemptAll (j : Journal) (nodes : List Expression) :
    (j.attemptAll nodes).records.toList =
      j.records.toList ++ j.recordsOf (nodes.filterMap Expression.change?) := by
  induction nodes generalizing j with
  | nil => simp [attemptAll, recordsOf]
  | cons node rest ih =>
      rw [attemptAll, List.foldl_cons, ← attemptAll, ih, records_attempt,
        Expression.filterMap_change?_cons]
      simp only [recordsOf, recording_attempt, pass_attempt, List.append_assoc]
      cases j.recording <;> simp

/-- The journal after a pass over a tree. -/
def afterPass (j : Journal) (tree : Expression) : Journal :=
  let counted := j.startPass.attemptAll tree.attempts
  counted.note (.passEnded counted.pass counted.changesInPass)

@[simp] theorem recording_afterPass (j : Journal) (tree : Expression) :
    (j.afterPass tree).recording = j.recording :=
  recording_attemptAll j.startPass tree.attempts

@[simp] theorem pass_afterPass (j : Journal) (tree : Expression) :
    (j.afterPass tree).pass = j.pass + 1 :=
  pass_attemptAll j.startPass tree.attempts

@[simp] theorem changesInPass_afterPass (j : Journal) (tree : Expression) :
    (j.afterPass tree).changesInPass = tree.changeLog.length :=
  (changesInPass_attemptAll j.startPass tree.attempts).trans (Nat.zero_add _)

theorem records_afterPass (j : Journal) (tree : Expression) :
    (j.afterPass tree).records.toList =
      j.records.toList ++ j.startPass.recordsOf tree.changeLog :=
  records_attemptAll j.startPass tree.attempts

end Journal

/-! ## The driver -/

/-- Work gives a result where no defect ends it. -/
theorem run_eq_ok_iff {α : Type} {work : Journaled α} {a : α} {j j' : Journal} :
    work.run j = .ok (a, j') ↔ work.carryOut j = (.ok a, j') := by
  rw [Journaled.run]
  rcases work.carryOut j with ⟨defect | result, k⟩ <;> simp

theorem map_fst_run {α : Type} (work : Journaled α) (j : Journal) :
    (work.run j).map Prod.fst = (work.carryOut j).1 := by
  rw [Journaled.run]
  rcases work.carryOut j with ⟨defect | result, j'⟩ <;> rfl

/-- What follows work that comes upon no defect goes on from the journal that it leaves. -/
theorem run_bind_of_ok {α β : Type} {work : Journaled α} {later : α → Journaled β} {a : α}
    {j j' : Journal} (h : work.run j = .ok (a, j')) :
    (work >>= later).run j = (later a).run j' := by
  have hwork : (ExceptT.run work).run j = (.ok a, j') := run_eq_ok_iff.1 h
  have hcarryOut : (work >>= later).carryOut j = (later a).carryOut j' := by
    rw [Journaled.carryOut, ExceptT.run_bind, StateT.run_bind, hwork]
    rfl
  rw [Journaled.run, Journaled.run, hcarryOut]

/-- Work that no defect ends, whatever the journal, is known by its results and journals. -/
theorem eq_of_run_eq_ok {α : Type} {work work' : Journaled α} {ends : Journal → α × Journal}
    (h : ∀ j, work.run j = .ok (ends j)) (h' : ∀ j, work'.run j = .ok (ends j)) :
    work = work' := by
  refine ExceptT.ext (StateT.ext fun j => ?_)
  have hends : work.carryOut j = work'.carryOut j :=
    (run_eq_ok_iff.1 (h j)).trans (run_eq_ok_iff.1 (h' j)).symm
  exact hends

namespace Expression

theorem attempt_run (node : Expression) (j : Journal) :
    node.attempt.run j = .ok (node.answer.revision, j.attempt node) := by
  simp only [attempt, simplify_eq_answer, Journal.attempt]
  cases node.answer <;> rfl

theorem mapM_run {visit : Expression → Journaled Revision} {r : Expression → Revision}
    {visited : Expression → List Expression} {es : List Expression}
    (h : ∀ e ∈ es, ∀ j : Journal, (visit e).run j = .ok (r e, j.attemptAll (visited e)))
    (j : Journal) :
    (es.mapM visit).run j = .ok (es.map r, j.attemptAll (es.flatMap visited)) := by
  induction es generalizing j with
  | nil => rfl
  | cons e rest ih =>
      obtain ⟨he, hrest⟩ := List.forall_mem_cons.1 h
      rw [List.mapM_cons, run_bind_of_ok (he j), run_bind_of_ok (ih hrest _), List.flatMap_cons,
        Journal.attemptAll_append]
      rfl

/-- Once its children are revised a node is settled by one attempt. -/
theorem settle_run (e : Expression) (j : Journal) :
    (settle attempt e (e.children.map passed)).run j =
      .ok (e.passed, j.attemptAll [e.overChildren afterPass]) := by
  rw [settle, node_revise_passed, run_bind_of_ok (attempt_run _ j), passed_eq]
  cases (e.overChildren afterPass).answer <;> rfl

/-- A pass comes upon no defect: it leaves the revision and the journal of its attempts. -/
theorem revisePass_run (e : Expression) (j : Journal) :
    e.revisePass.run j = .ok (e.passed, j.attemptAll e.attempts) := by
  induction e using childInduction generalizing j with
  | node e ih =>
      change (bottomUp attempt e).run j = _
      have hchildren : (e.children.mapM (bottomUp attempt)).run j =
          .ok (e.children.map passed, j.attemptAll (e.children.flatMap attempts)) := mapM_run ih j
      rw [bottomUp_eq, run_bind_of_ok hchildren, settle_run, attempts_eq,
        Journal.attemptAll_append]

/-- A pass leaves the tree after it and the journal of its attempts. -/
theorem pass_run (tree : Expression) (j : Journal) :
    tree.pass.run j = .ok (tree.afterPass, j.attemptAll tree.attempts) := by
  rw [pass, run_bind_of_ok (revisePass_run tree j)]
  rfl

/-- A run with a pass left makes it, and goes on unless that changed nothing. -/
theorem passes_run_succ (left : Nat) (tree : Expression) (j : Journal) :
    (passes (left + 1) tree).run j =
      if tree.changeLog = [] then .ok ((tree.afterPass, true), j.afterPass tree)
      else (passes left tree.afterPass).run (j.afterPass tree) := by
  have hstart : (passes (left + 1) tree).run j =
      if (j.afterPass tree).changesInPass = 0 then .ok ((tree.afterPass, true), j.afterPass tree)
      else (passes left tree.afterPass).run (j.afterPass tree) := by
    have hbegin : (modify Journal.startPass : Journaled Unit).run j = .ok ((), j.startPass) := rfl
    rw [passes, run_bind_of_ok hbegin, run_bind_of_ok (pass_run tree j.startPass)]
    exact apply_ite (fun m : Journaled (Expression × Bool) => m.run (j.afterPass tree)) _ _ _
  rw [hstart, Journal.changesInPass_afterPass]
  simp only [List.length_eq_zero_iff]

/-! ## The outcome of a run -/

/-- The outcome of a run that has made `done` passes and has some left: it makes passes until one
    changes nothing. -/
def outcomeFrom (recording : Bool) (done : Nat) : Nat → Expression → Outcome
  | 0, tree => ⟨tree, done, false, []⟩
  | left + 1, tree =>
    let records := if recording then tree.changeLog.map (.ofChange (done + 1)) else []
    if tree.changeLog = [] then ⟨tree.afterPass, done + 1, true, records⟩
    else
      let later := outcomeFrom recording (done + 1) left tree.afterPass
      { later with changes := records ++ later.changes }

/-- The outcome of a run over a tree from the beginning. -/
def outcome (settings : Settings) (tree : Expression) : Outcome :=
  outcomeFrom settings.recordChanges 0 settings.maxPasses tree

/-- What no pass can lose is not lost by a run. -/
theorem tree_outcomeFrom {p : Expression → Prop} (h : ∀ e, p e → p e.afterPass)
    {tree : Expression} (htree : p tree) (recording : Bool) (done left : Nat) :
    p (outcomeFrom recording done left tree).tree := by
  induction left generalizing done tree with
  | zero => exact htree
  | succ left ih =>
      rw [outcomeFrom]
      split
      · exact h tree htree
      · exact ih (h tree htree) (done + 1)

theorem passes_run (left : Nat) (tree : Expression) (j : Journal) :
    ∃ j', (passes left tree).run j =
        .ok (((outcomeFrom j.recording j.pass left tree).tree,
          (outcomeFrom j.recording j.pass left tree).reachedFixpoint), j') ∧
      j'.pass = (outcomeFrom j.recording j.pass left tree).passes ∧
      j'.records.toList =
        j.records.toList ++ (outcomeFrom j.recording j.pass left tree).changes := by
  induction left generalizing tree j with
  | zero => exact ⟨j, rfl, rfl, (List.append_nil _).symm⟩
  | succ left ih =>
      rw [passes_run_succ, outcomeFrom]
      split
      · exact ⟨j.afterPass tree, rfl, j.pass_afterPass tree, j.records_afterPass tree⟩
      · obtain ⟨j', hrun, hpass, hrecords⟩ := ih tree.afterPass (j.afterPass tree)
        rw [Journal.recording_afterPass, Journal.pass_afterPass] at hrun hpass hrecords
        refine ⟨j', hrun, hpass, ?_⟩
        rw [hrecords, Journal.records_afterPass, List.append_assoc]
        rfl

/-- A run notes how its passes ended, and gives what they leave. -/
theorem run_of_passes {settings : Settings} {tree tree' : Expression} {reached : Bool} {j : Journal}
    (h : (passes settings.maxPasses tree).run (Journal.new settings.recordChanges) =
      .ok ((tree', reached), j)) :
    run settings tree = .ok (⟨tree', j.pass, reached, j.records.toList⟩,
      j.note (if reached then .reachedFixpoint j.pass else .stoppedEarly j.pass)) := by
  rw [run, passesToEnd, run_bind_of_ok h]
  rfl

/-- Optimizing comes upon no defect, and gives the outcome of the run. -/
theorem optimize_eq (settings : Settings) (tree : Expression) :
    optimize settings tree = .ok (tree.outcome settings) := by
  obtain ⟨j', hrun, hpass, hrecords⟩ :=
    passes_run settings.maxPasses tree (Journal.new settings.recordChanges)
  rw [optimize, run_of_passes hrun]
  change Except.ok (Outcome.mk _ j'.pass _ j'.records.toList) = _
  rw [hpass, hrecords]
  rfl

end Expression

end AttributeOptimizer
