import AttributeOptimizer.Proofs.Passes

set_option autoImplicit false

/-! # Runs that are cut and resumed

The limit on the passes of a run decides only where it is cut. A run that is cut and begun again at
the tree that it left goes on as one run with both limits would have (`outcomeFrom_add`), the passes
of the second part being numbered after those of the first (`outcomeFrom_later`).

In every run each pass leaves a record, where changes are recorded, but for a last one that changes
nothing (`exists_record_iff`). -/

namespace AttributeOptimizer

/-- The record as that of a run that has made other passes before. -/
def ChangeRecord.later (earlier : Nat) (record : ChangeRecord) : ChangeRecord :=
  { record with pass := record.pass + earlier }

/-- The outcome as that of a run that has made other passes before. -/
def Outcome.later (earlier : Nat) (o : Outcome) : Outcome :=
  { o with passes := earlier + o.passes, changes := o.changes.map (.later earlier) }

namespace Expression

variable (recording : Bool)

/-! ## One run after another -/

/-- Which passes were made before matters to the numbers of the passes only. -/
theorem outcomeFrom_later (earlier done left : Nat) (tree : Expression) :
    outcomeFrom recording (done + earlier) left tree =
      (outcomeFrom recording done left tree).later earlier := by
  induction left generalizing done tree with
  | zero => simp [outcomeFrom, Outcome.later, Nat.add_comm]
  | succ left ih =>
      have hnumber : done + earlier + 1 = done + 1 + earlier := Nat.add_right_comm ..
      have hrecords : tree.changeLog.map (ChangeRecord.ofChange (done + 1 + earlier)) =
          (tree.changeLog.map (ChangeRecord.ofChange (done + 1))).map (.later earlier) := by
        rw [List.map_map]
        rfl
      rw [outcomeFrom, outcomeFrom, hnumber, ih, hrecords]
      cases recording <;> split <;> simp [Outcome.later, Nat.add_comm]

/-- A run with both limits is a run with the first and, where that reached no fixpoint, the rest of
    it from the tree that it left. -/
theorem outcomeFrom_add (done m n : Nat) (tree : Expression) :
    let first := outcomeFrom recording done m tree
    let second := outcomeFrom recording (done + m) n first.tree
    outcomeFrom recording done (m + n) tree =
      if first.reachedFixpoint then first
      else { second with changes := first.changes ++ second.changes } := by
  induction m generalizing done tree with
  | zero => simp [outcomeFrom]
  | succ m ih =>
      have hleft : m + 1 + n = m + n + 1 := Nat.add_right_comm ..
      have hdone : done + (m + 1) = done + 1 + m := by omega
      rw [hleft, hdone, outcomeFrom, outcomeFrom, ih]
      split
      · rfl
      · dsimp only
        split <;> simp

/-! ## The passes of a run -/

/-- A run makes no more passes than are left, and all of them unless it reaches a fixpoint, which
    takes a pass. -/
theorem passes_outcomeFrom (done left : Nat) (tree : Expression) :
    let o := outcomeFrom recording done left tree
    o.passes ≤ done + left ∧ (o.reachedFixpoint = false → o.passes = done + left) ∧
      (o.reachedFixpoint = true → done < o.passes) := by
  induction left generalizing done tree with
  | zero => simp [outcomeFrom]
  | succ left ih =>
      rw [outcomeFrom]
      split
      · simp
      · obtain ⟨hle, hcut, hreached⟩ := ih (done + 1) tree.afterPass
        refine ⟨?_, fun h => ?_, fun h => ?_⟩
        · exact Nat.le_trans hle (Nat.le_of_eq (Nat.add_right_comm ..))
        · exact (hcut h).trans (Nat.add_right_comm ..)
        · exact Nat.lt_of_succ_lt (hreached h)

/-- Where changes are recorded, each pass leaves a record, except a last one that changes
    nothing. -/
theorem exists_record_iff {done left pass : Nat} {tree : Expression} (hdone : done < pass)
    (hpass : pass ≤ (outcomeFrom true done left tree).passes) :
    (∃ record ∈ (outcomeFrom true done left tree).changes, record.pass = pass) ↔
      ¬(pass = (outcomeFrom true done left tree).passes ∧
        (outcomeFrom true done left tree).reachedFixpoint = true) := by
  induction left generalizing done tree with
  | zero => exact absurd hdone (Nat.not_lt.2 hpass)
  | succ left ih =>
      obtain ⟨-, -, hreached⟩ := passes_outcomeFrom true (done + 1) left tree.afterPass
      have hnow : ∀ record ∈ tree.changeLog.map (ChangeRecord.ofChange (done + 1)),
          record.pass = done + 1 := by
        intro record hrecord
        obtain ⟨change, -, rfl⟩ := List.mem_map.1 hrecord
        rfl
      rw [outcomeFrom] at hpass ⊢
      split at hpass
      · next hnone =>
          -- The one pass of this run changes nothing.
          obtain rfl : pass = done + 1 := Nat.le_antisymm hpass hdone
          simp [hnone]
      · next hsome =>
          rw [if_neg hsome]
          rcases Nat.eq_or_lt_of_le hdone with rfl | hdone
          · obtain ⟨change, hchange⟩ := List.exists_mem_of_ne_nil _ hsome
            refine iff_of_true ⟨.ofChange (done + 1) change, ?_, rfl⟩ ?_
            · exact List.mem_append_left _ (List.mem_map_of_mem hchange)
            · rintro ⟨hlast, hfixpoint⟩
              exact Nat.ne_of_lt (hreached hfixpoint) hlast
          · rw [← ih hdone hpass]
            constructor
            · rintro ⟨record, hrecord, rfl⟩
              rcases List.mem_append.1 hrecord with hrecord | hrecord
              · exact absurd (hnow record hrecord) (Nat.ne_of_gt hdone)
              · exact ⟨record, hrecord, rfl⟩
            · rintro ⟨record, hrecord, rfl⟩
              exact ⟨record, List.mem_append_right _ hrecord, rfl⟩

/-- A run with the limits of two others together is the first of them where that reaches a fixpoint;
    where it does not, it is the first and then the second, begun at the tree that the first has
    left. Every run keeps to its limit and is cut only there; and where changes are recorded each of
    its passes has left a record, except a last one that changes nothing. -/
theorem optimize_resumes (tree : Expression) :
    (∀ (recording : Bool) (m n : Nat), ∃ o₁ o₂ o,
      optimize ⟨m, recording⟩ tree = .ok o₁ ∧ optimize ⟨n, recording⟩ o₁.tree = .ok o₂ ∧
      optimize ⟨m + n, recording⟩ tree = .ok o ∧
      (o₁.reachedFixpoint = true → o = o₁) ∧
      (o₁.reachedFixpoint = false →
        o.tree = o₂.tree ∧ o.passes = m + o₂.passes ∧ o.reachedFixpoint = o₂.reachedFixpoint ∧
        o.changes = o₁.changes ++ o₂.changes.map (.later m))) ∧
    ∀ settings : Settings, ∃ o, optimize settings tree = .ok o ∧ o.passes ≤ settings.maxPasses ∧
      (o.reachedFixpoint = false → o.passes = settings.maxPasses) ∧
      (settings.recordChanges = true → ∀ pass, 1 ≤ pass → pass ≤ o.passes →
        ((∃ record ∈ o.changes, record.pass = pass) ↔
          ¬(pass = o.passes ∧ o.reachedFixpoint = true))) := by
  constructor
  · intro recording m n
    refine ⟨_, _, _, optimize_eq _ _, optimize_eq _ _, optimize_eq _ _, ?_, ?_⟩
    · intro hreached
      exact (outcomeFrom_add recording 0 m n tree).trans (if_pos hreached)
    · intro hcut
      have hadd := (outcomeFrom_add recording 0 m n tree).trans
        (if_neg (Bool.eq_false_iff.1 hcut))
      rw [outcomeFrom_later] at hadd
      change outcomeFrom recording 0 (m + n) tree = _ at hadd
      simp only [outcome, hadd]
      exact ⟨rfl, rfl, rfl, rfl⟩
  · intro settings
    obtain ⟨hle, hcut, -⟩ := passes_outcomeFrom settings.recordChanges 0 settings.maxPasses tree
    rw [Nat.zero_add] at hle hcut
    refine ⟨_, optimize_eq _ _, hle, hcut, ?_⟩
    intro hrecording pass hfirst hlast
    rw [outcome, hrecording] at hlast ⊢
    exact exists_record_iff hfirst hlast

/-- A literal lookup on a constant takes three passes, of which the last changes nothing: cut after
    one, the run has two to go. -/
theorem cut_lookup_goes_on :
    let here : Location := ⟨"m.py", 1⟩
    let tree := getattr here (constant here (.int 3)) (constant here (.str "real")) none
    ∃ o₁ o₂ o, optimize ⟨1, true⟩ tree = .ok o₁ ∧ optimize ⟨2, true⟩ o₁.tree = .ok o₂ ∧
      optimize ⟨3, true⟩ tree = .ok o ∧ o₁.reachedFixpoint = false ∧
      o.passes = 3 ∧ o.reachedFixpoint = true ∧
      o.changes = o₁.changes ++ o₂.changes.map (.later 1) ∧
      ∃ record ∈ o.changes, record.pass = 2 := by
  intro here tree
  obtain ⟨o₁, o₂, o, h₁, h₂, h, -, hresumed⟩ := (optimize_resumes tree).1 true 1 2
  have hcut : o₁.reachedFixpoint = false := by
    cases h₁
    rfl
  obtain ⟨-, -, -, hchanges⟩ := hresumed hcut
  obtain ⟨o', h', -, -, hrecords⟩ := (optimize_resumes tree).2 ⟨3, true⟩
  obtain rfl : o = o' := Except.ok.inj (h.symm.trans h')
  have hpasses : o.passes = 3 := by
    cases h
    rfl
  have hreached : o.reachedFixpoint = true := by
    cases h
    rfl
  refine ⟨o₁, o₂, o, h₁, h₂, h, hcut, hpasses, hreached, hchanges, ?_⟩
  exact (hrecords rfl 2 (by decide) (by omega)).2 (by omega)

end Expression

end AttributeOptimizer
