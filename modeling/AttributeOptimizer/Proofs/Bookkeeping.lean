import AttributeOptimizer.Proofs.Passes
import Mathlib.Data.List.DropRight

set_option autoImplicit false

/-! # The books of a journal

What a pass does to a journal can be said without the pass: a list of changes is taken down, each of
them is counted, and where changes are recorded their records follow the earlier ones
(`Journal.TakesDown`).

A journal may be used in any way: passes begin, single changes are taken down, and whole passes are
made over trees. Its two accounts, the counter that each beginning resets and the records that
outlive the passes, stay in balance through every sequence of such steps (`Journal.Balanced`), and
no step touches a record that is there (`isPrefix_records_foldl`). -/

namespace AttributeOptimizer

namespace Journal

/-! ## Taking down changes -/

/-- Between two states of a journal a list of changes was taken down, in this order and in one
    pass. -/
structure TakesDown (j : Journal) (changes : List (ChangeTag × Location × String)) (j' : Journal) :
    Prop where
  recording : j'.recording = j.recording
  pass : j'.pass = j.pass
  changesInPass : j'.changesInPass = j.changesInPass + changes.length
  records : j'.records.toList = j.records.toList ++ j.recordsOf changes

theorem takesDown_change (j : Journal) (tag : ChangeTag) (location : Location) (message : String) :
    j.TakesDown [(tag, location, message)] (j.change tag location message) where
  recording := j.recording_change tag location message
  pass := j.pass_change tag location message
  changesInPass := j.changesInPass_change tag location message
  records := by
    rw [records_change, recordsOf]
    split
    · exact Array.toList_push
    · exact (List.append_nil _).symm

theorem takesDown_attemptAll (j : Journal) (nodes : List Expression) :
    j.TakesDown (nodes.filterMap Expression.change?) (j.attemptAll nodes) where
  recording := j.recording_attemptAll nodes
  pass := j.pass_attemptAll nodes
  changesInPass := j.changesInPass_attemptAll nodes
  records := j.records_attemptAll nodes

/-! ## Uses of a journal -/

/-- One use of a journal. -/
inductive Step where
  /-- A pass begins. -/
  | start
  /-- A change is taken down. -/
  | change (tag : ChangeTag) (location : Location) (message : String)
  /-- A tree is walked, as in a pass; the number of the pass stays. -/
  | walk (tree : Expression)

namespace Step

/-- Whether a pass begins. -/
def isStart : Step → Bool
  | start => true
  | _ => false

/-- The changes that a step takes down. -/
def changes : Step → List (ChangeTag × Location × String)
  | start => []
  | change tag location message => [(tag, location, message)]
  | walk tree => tree.changeLog

/-- What a step leaves in the place of the tree that it walks. -/
def revision? : Step → Option Revision
  | walk tree => some tree.passed
  | _ => none

/-- Makes a step; a walk gives what it leaves in the place of the tree. -/
def perform : Step → Journaled (Option Revision)
  | start => do
    modify Journal.startPass
    return none
  | change tag location message => do
    modify (·.change tag location message)
    return none
  | walk tree => do return some (← tree.revisePass)

/-- The steps since a pass last began; all of them if none did. -/
def sinceStart (steps : List Step) : List Step := steps.rtakeWhile fun step => !step.isStart

end Step

/-- Makes steps, one after the other. -/
def performAll (steps : List Step) : Journaled (List (Option Revision)) := steps.mapM Step.perform

/-- The journal after a step. -/
def afterStep (j : Journal) : Step → Journal
  | .start => j.startPass
  | .change tag location message => j.change tag location message
  | .walk tree => j.attemptAll tree.attempts

theorem perform_run (step : Step) (j : Journal) :
    step.perform.run j = .ok (step.revision?, j.afterStep step) := by
  cases step with
  | start => rfl
  | change tag location message => rfl
  | walk tree =>
      rw [Step.perform, run_bind_of_ok (tree.revisePass_run j)]
      rfl

/-- No step comes upon a defect, and what the walks leave of their trees does not depend on the
    journal. -/
theorem performAll_run (steps : List Step) (j : Journal) :
    (performAll steps).run j = .ok (steps.map Step.revision?, steps.foldl afterStep j) := by
  rw [performAll]
  induction steps generalizing j with
  | nil => rfl
  | cons step rest ih =>
      rw [List.mapM_cons, run_bind_of_ok (perform_run step j),
        run_bind_of_ok (ih (j.afterStep step))]
      rfl

/-- A step begins a pass, or takes its changes down within the pass. -/
theorem afterStep_cases (j : Journal) (step : Step) :
    step = .start ∧ j.afterStep step = j.startPass ∨
      step.isStart = false ∧ j.TakesDown step.changes (j.afterStep step) := by
  cases step with
  | start => exact Or.inl ⟨rfl, rfl⟩
  | change tag location message => exact Or.inr ⟨rfl, j.takesDown_change tag location message⟩
  | walk tree => exact Or.inr ⟨rfl, j.takesDown_attemptAll tree.attempts⟩

theorem recording_afterStep (j : Journal) (step : Step) :
    (j.afterStep step).recording = j.recording := by
  rcases j.afterStep_cases step with ⟨rfl, -⟩ | ⟨-, htaken⟩
  · rfl
  · exact htaken.recording

theorem recording_foldl (j : Journal) (steps : List Step) :
    (steps.foldl afterStep j).recording = j.recording := by
  induction steps generalizing j with
  | nil => rfl
  | cons step rest ih => exact (ih (j.afterStep step)).trans (j.recording_afterStep step)

/-! ## Balance -/

/-- The journal agrees with the steps that it was used for. -/
structure Balanced (steps : List Step) (j : Journal) : Prop where
  /-- The current pass is numbered by the beginnings. -/
  pass : j.pass = steps.countP Step.isStart
  /-- What is counted are the changes since the last of them. -/
  changesInPass : j.changesInPass = ((Step.sinceStart steps).flatMap Step.changes).length
  /-- The records of the current pass are those of the same changes. -/
  current : j.records.toList.filter (·.pass = j.pass) =
    j.recordsOf ((Step.sinceStart steps).flatMap Step.changes)
  /-- Records stand in the order of their passes. -/
  ordered : (j.records.toList.map ChangeRecord.pass).Pairwise (· ≤ ·)
  /-- There is no record of a pass that has not begun. -/
  bounded : ∀ record ∈ j.records.toList, record.pass ≤ j.pass
  /-- Where changes are only counted there is no record at all. -/
  unrecorded : j.recording = false → j.records = #[]

theorem balanced_new (recording : Bool) : Balanced [] (new recording) where
  pass := rfl
  changesInPass := rfl
  current := by cases recording <;> rfl
  ordered := List.Pairwise.nil
  bounded := nofun
  unrecorded _ := rfl

theorem pass_of_mem_recordsOf {j : Journal} {changes : List (ChangeTag × Location × String)}
    {record : ChangeRecord} (h : record ∈ j.recordsOf changes) : record.pass = j.pass := by
  rw [recordsOf] at h
  split at h
  · obtain ⟨change, -, rfl⟩ := List.mem_map.1 h
    rfl
  · cases h

namespace Balanced

variable {steps : List Step} {j : Journal}

/-- A beginning resets the counter, and no record is of the pass that begins. -/
theorem startPass (h : Balanced steps j) : Balanced (steps ++ [.start]) j.startPass := by
  have hsince : Step.sinceStart (steps ++ [.start]) = [] :=
    List.rtakeWhile_concat_neg _ _ _ (by simp [Step.isStart])
  refine ⟨?_, ?_, ?_, h.ordered, ?_, h.unrecorded⟩
  · change j.pass + 1 = _
    rw [h.pass, List.countP_append]
    rfl
  · rw [hsince]
    rfl
  · have hnone : j.records.toList.filter (·.pass = j.pass + 1) = [] := by
      rw [List.filter_eq_nil_iff]
      intro record hrecord
      have hle := h.bounded record hrecord
      simp only [decide_eq_true_eq]
      omega
    rw [hsince]
    exact hnone.trans (by simp [recordsOf])
  · intro record hrecord
    exact Nat.le_succ_of_le (h.bounded record hrecord)

/-- A step within a pass adds its changes to both accounts. -/
theorem takesDown {step : Step} {j' : Journal} (h : Balanced steps j)
    (hstep : step.isStart = false) (htaken : j.TakesDown step.changes j') :
    Balanced (steps ++ [step]) j' := by
  have hsince : (Step.sinceStart (steps ++ [step])).flatMap Step.changes =
      (Step.sinceStart steps).flatMap Step.changes ++ step.changes := by
    rw [Step.sinceStart, List.rtakeWhile_concat_pos _ _ _ (by simp [hstep]), List.flatMap_append,
      List.flatMap_singleton]
    rfl
  -- The new records are of the current pass, and no earlier record is of a later one.
  have hnew : ∀ record ∈ j.recordsOf step.changes, record.pass = j.pass :=
    fun _ hrecord => pass_of_mem_recordsOf hrecord
  refine ⟨?_, ?_, ?_, ?_, ?_, ?_⟩
  · rw [htaken.pass, h.pass, List.countP_append]
    simp [hstep]
  · rw [htaken.changesInPass, h.changesInPass, hsince, List.length_append]
  · have hall : (j.recordsOf step.changes).filter (·.pass = j.pass) = j.recordsOf step.changes :=
      List.filter_eq_self.2 fun record hrecord => by simp [hnew record hrecord]
    rw [htaken.records, htaken.pass, List.filter_append, h.current, hall, hsince]
    simp only [recordsOf, htaken.recording, htaken.pass]
    split <;> simp
  · have hpasses : ∀ n ∈ (j.recordsOf step.changes).map ChangeRecord.pass, n = j.pass :=
      List.forall_mem_map.2 hnew
    have hearlier : ∀ n ∈ j.records.toList.map ChangeRecord.pass, n ≤ j.pass :=
      List.forall_mem_map.2 h.bounded
    rw [htaken.records, List.map_append, List.pairwise_append]
    refine ⟨h.ordered, List.pairwise_of_forall_mem_list ?_, ?_⟩
    · intro a ha b hb
      exact Nat.le_of_eq ((hpasses a ha).trans (hpasses b hb).symm)
    · intro a ha b hb
      exact (hpasses b hb).symm ▸ hearlier a ha
  · intro record hrecord
    rw [htaken.records, List.mem_append] at hrecord
    rw [htaken.pass]
    rcases hrecord with hrecord | hrecord
    · exact h.bounded record hrecord
    · exact Nat.le_of_eq (hnew record hrecord)
  · intro hoff
    rw [htaken.recording] at hoff
    rw [← Array.toList_inj, htaken.records, h.unrecorded hoff]
    simp [recordsOf, hoff]

theorem afterStep (h : Balanced steps j) (step : Step) :
    Balanced (steps ++ [step]) (j.afterStep step) := by
  rcases j.afterStep_cases step with ⟨rfl, -⟩ | ⟨hstep, htaken⟩
  · exact h.startPass
  · exact h.takesDown hstep htaken

end Balanced

/-- Every sequence of steps leaves a balanced journal. -/
theorem balanced_foldl (recording : Bool) (steps : List Step) :
    Balanced steps (steps.foldl afterStep (new recording)) := by
  -- Balance is about the steps since a pass last began, so it is the last step that is taken off.
  induction steps using List.reverseRecOn with
  | nil => exact balanced_new recording
  | append_singleton steps step ih =>
      rw [List.foldl_append]
      exact ih.afterStep step

/-! ## Earlier records -/

theorem isPrefix_records_afterStep (j : Journal) (step : Step) :
    j.records.toList <+: (j.afterStep step).records.toList := by
  rcases j.afterStep_cases step with ⟨rfl, -⟩ | ⟨-, htaken⟩
  · exact List.prefix_rfl
  · rw [htaken.records]
    exact List.prefix_append _ _

/-- Steps leave the records that are there as they are, at the front. -/
theorem isPrefix_records_foldl (j : Journal) (steps : List Step) :
    j.records.toList <+: (steps.foldl afterStep j).records.toList := by
  induction steps generalizing j with
  | nil => exact List.prefix_rfl
  | cons step rest ih => exact (j.isPrefix_records_afterStep step).trans (ih (j.afterStep step))

/-- From a new journal every sequence of steps goes through. The pass is then the number of the
    beginnings, and the counter that of the changes since the last of them. A journal that records
    has as many records of the current pass, its records stand in the order of their passes, and
    further steps leave all of them as they are; one that does not has none, and is at the same pass
    and the same count. What the walks leave of their trees is the same in both. -/
theorem books_balance (steps : List Step) :
    ∃ revisions on off,
      (performAll steps).run (new true) = .ok (revisions, on) ∧
      (performAll steps).run (new false) = .ok (revisions, off) ∧
      on.pass = steps.countP Step.isStart ∧ off.pass = on.pass ∧
      on.changesInPass = ((Step.sinceStart steps).flatMap Step.changes).length ∧
      off.changesInPass = on.changesInPass ∧
      on.records.toList.countP (·.pass = on.pass) = on.changesInPass ∧
      (on.records.toList.map ChangeRecord.pass).Pairwise (· ≤ ·) ∧
      off.records = #[] ∧
      ∀ more : List Step, ∃ later on',
        (performAll (steps ++ more)).run (new true) = .ok (revisions ++ later, on') ∧
        on.records.toList <+: on'.records.toList := by
  have hon := balanced_foldl true steps
  have hoff := balanced_foldl false steps
  have hrecording : (steps.foldl afterStep (new true)).recording = true :=
    recording_foldl (new true) steps
  have hsilent : (steps.foldl afterStep (new false)).recording = false :=
    recording_foldl (new false) steps
  refine ⟨_, _, _, performAll_run steps (new true), performAll_run steps (new false), hon.pass,
    hoff.pass.trans hon.pass.symm, hon.changesInPass,
    hoff.changesInPass.trans hon.changesInPass.symm, ?_, hon.ordered, hoff.unrecorded hsilent, ?_⟩
  · rw [List.countP_eq_length_filter, hon.current, hon.changesInPass, recordsOf, if_pos hrecording,
      List.length_map]
  · intro more
    refine ⟨more.map Step.revision?, _, (performAll_run (steps ++ more) (new true)).trans ?_,
      isPrefix_records_foldl _ more⟩
    rw [List.map_append, List.foldl_append]

end Journal

end AttributeOptimizer
