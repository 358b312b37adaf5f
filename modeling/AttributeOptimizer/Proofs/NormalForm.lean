import AttributeOptimizer.Proofs.Passes
import Mathlib.Logic.Function.Iterate

set_option autoImplicit false

/-! # Normal forms

A tree is normal when every node of it is terminal. These are exactly the trees over which a pass
reports no change (`changeLog_eq_nil_iff`), and a pass hands such a tree back as the very node that
it was given (`passed_of_normal`). A run that reports a fixpoint has therefore reached a normal tree
(`normal_of_reachedFixpoint`), and another run over that tree ends after one pass
(`outcome_of_normal`). -/

namespace AttributeOptimizer

namespace Expression

/-- No rule applies at any node of the tree. -/
def Normal (e : Expression) : Prop := ∀ n ∈ e.nodes, n.Terminal

theorem normal_iff {e : Expression} : e.Normal ↔ e.Terminal ∧ ∀ c ∈ e.children, c.Normal :=
  forall_mem_nodes

theorem Normal.terminal {e : Expression} (h : e.Normal) : e.Terminal := (normal_iff.1 h).1

theorem Normal.of_mem_children {e c : Expression} (h : e.Normal) (hc : c ∈ e.children) :
    c.Normal :=
  (normal_iff.1 h).2 c hc

theorem normal_constant (location : Location) (value : Constant) :
    (constant location value).Normal :=
  normal_iff.2 ⟨trivial, nofun⟩

theorem normal_raise (location : Location) (exception : RaisedException) :
    (raise location exception).Normal :=
  normal_iff.2 ⟨trivial, nofun⟩

/-- The effects of a normal tree do not raise unless the tree does: a part that raises would have
    replaced the node above it. -/
theorem Normal.raises_of_mem_effects {e x : Expression} (h : e.Normal) (hquiet : e.raises = false)
    (hx : x ∈ e.effects) : x.raises = false := by
  induction e using childInduction with
  | node e ih =>
      cases e with
      | tuple location elements =>
          -- No element of a terminal tuple raises, so neither do the effects of any.
          obtain ⟨c, hc, hx⟩ := mem_allEffects.1 hx
          exact ih c hc (h.of_mem_children hc) (h.terminal.1 c hc) hx
      | sideEffects location before value =>
          have hvalue := value_mem_children location before value
          rw [raises_sideEffects, Bool.or_eq_false_iff] at hquiet
          rcases List.mem_append.1 hx with hx | hx
          · obtain ⟨c, hc, hx⟩ := mem_allEffects.1 hx
            have hchild := effect_mem_children hc location value
            exact ih c hchild (h.of_mem_children hchild) (h.terminal.2 c hc).2 hx
          · exact ih value hvalue (h.of_mem_children hvalue) hquiet.2 hx
      | constant location value => cases hx
      | var location name => cases hx
      | _ => exact List.mem_singleton.1 hx ▸ hquiet

/-! ## Passes over normal trees -/

theorem afterPass_of_normal {e : Expression} (h : e.Normal) : e.afterPass = e := by
  induction e using childInduction with
  | node e ih =>
      have hchildren : e.overChildren afterPass = e :=
        overChildren_eq_self fun c hc => ih c hc (h.of_mem_children hc)
      rw [afterPass_eq, hchildren, afterAttempt_of_terminal h.terminal]

/-- A pass hands a normal tree back as the very node. -/
theorem passed_of_normal {e : Expression} (h : e.Normal) : e.passed = .kept := by
  induction e using childInduction with
  | node e ih =>
      have hchildren : e.overChildren afterPass = e :=
        overChildren_eq_self fun c hc => afterPass_of_normal (h.of_mem_children hc)
      have hkept : (e.children.map passed).all Revision.isKept = true := by
        rw [List.all_map, List.all_eq_true]
        intro c hc
        rw [Function.comp_apply, ih c hc (h.of_mem_children hc)]
        rfl
      rw [passed_eq, hchildren, answer_eq_unchanged_iff.2 h.terminal, revise, if_pos hkept]
      rfl

/-- A pass reports no change exactly over a normal tree. -/
theorem changeLog_eq_nil_iff {e : Expression} : e.changeLog = [] ↔ e.Normal := by
  induction e using childInduction with
  | node e ih =>
      rw [changeLog_eq, List.append_eq_nil_iff, List.flatMap_eq_nil_iff, Option.toList_eq_nil_iff,
        change?_eq_none_iff, normal_iff, forall₂_congr ih, and_comm]
      refine and_congr_left fun hchildren => ?_
      rw [overChildren_eq_self fun c hc => afterPass_of_normal (hchildren c hc)]

/-- A pass over a normal tree keeps the very tree and takes nothing down. -/
theorem revisePass_of_normal {tree : Expression} (h : tree.Normal) (j : Journal) :
    ∃ j', tree.revisePass.run j = .ok (.kept, j') ∧ j'.changesInPass = j.changesInPass ∧
      j'.records = j.records := by
  have hlog : tree.attempts.filterMap change? = [] := changeLog_eq_nil_iff.2 h
  refine ⟨j.attemptAll tree.attempts, ?_, ?_, ?_⟩
  · rw [revisePass_run, passed_of_normal h]
  · rw [Journal.changesInPass_attemptAll, hlog]
    rfl
  · rw [← Array.toList_inj, Journal.records_attemptAll, hlog]
    simp [Journal.recordsOf]

/-! ## Runs and fixpoints -/

theorem outcomeFrom_of_normal {tree : Expression} (h : tree.Normal) (recording : Bool)
    (done left : Nat) :
    outcomeFrom recording done (left + 1) tree = ⟨tree, done + 1, true, []⟩ := by
  have hlog := changeLog_eq_nil_iff.2 h
  simp only [outcomeFrom, hlog, afterPass_of_normal h, if_true, List.map_nil, ite_self]

/-- A run over a normal tree makes one pass and no change. -/
theorem outcome_of_normal {tree : Expression} (h : tree.Normal) {settings : Settings}
    (hpasses : 1 ≤ settings.maxPasses) : tree.outcome settings = ⟨tree, 1, true, []⟩ := by
  obtain ⟨left, hleft⟩ := Nat.exists_eq_add_of_le' hpasses
  rw [outcome, hleft]
  exact outcomeFrom_of_normal h settings.recordChanges 0 left

/-- The pass that finds a fixpoint leaves the tree as it is, and so would every pass after it: a run
    leaves what as many passes as it may make would leave. -/
theorem tree_outcomeFrom_eq_iterate (recording : Bool) (done left : Nat) (tree : Expression) :
    (outcomeFrom recording done left tree).tree = afterPass^[left] tree := by
  induction left generalizing done tree with
  | zero => rfl
  | succ left ih =>
      rw [outcomeFrom, Function.iterate_succ_apply]
      split
      · next hlog =>
          have hfixed := afterPass_of_normal (changeLog_eq_nil_iff.1 hlog)
          rw [hfixed, Function.iterate_fixed hfixed]
      · exact ih (done + 1) tree.afterPass

/-- A run that gets to a normal tree in its first pass ends with that tree. -/
theorem tree_outcome_of_normal_afterPass {tree : Expression} (h : tree.afterPass.Normal)
    {settings : Settings} (hpasses : 1 ≤ settings.maxPasses) :
    (tree.outcome settings).tree = tree.afterPass := by
  obtain ⟨left, hleft⟩ := Nat.exists_eq_add_of_le' hpasses
  rw [outcome, tree_outcomeFrom_eq_iterate, hleft, Function.iterate_succ_apply,
    Function.iterate_fixed (afterPass_of_normal h)]

/-- A reported fixpoint is a normal tree. -/
theorem normal_of_reachedFixpoint {recording : Bool} {done left : Nat} {tree : Expression}
    (h : (outcomeFrom recording done left tree).reachedFixpoint = true) :
    (outcomeFrom recording done left tree).tree.Normal := by
  induction left generalizing done tree with
  | zero => exact Bool.noConfusion h
  | succ left ih =>
      rw [outcomeFrom] at h ⊢
      split at h
      · next hlog =>
          have hnormal := changeLog_eq_nil_iff.1 hlog
          rw [if_pos hlog]
          exact (afterPass_of_normal hnormal).symm ▸ hnormal
      · next hlog =>
          rw [if_neg hlog]
          exact ih h

/-- Optimizing gives a normal tree whenever it reports a fixpoint, and then optimizing the tree
    again gives the same tree after one pass without changes; a pass over any normal tree keeps the
    very tree and takes nothing down. -/
theorem fixpoint_normal_and_stable (settings : Settings) (tree : Expression) :
    (∃ o, optimize settings tree = .ok o ∧
      (o.reachedFixpoint = true →
        o.tree.Normal ∧
        ∀ again : Settings, 1 ≤ again.maxPasses →
          optimize again o.tree = .ok ⟨o.tree, 1, true, []⟩)) ∧
    (tree.Normal → ∀ j : Journal, ∃ j', tree.revisePass.run j = .ok (.kept, j') ∧
      j'.changesInPass = j.changesInPass ∧ j'.records = j.records) := by
  constructor
  · refine ⟨tree.outcome settings, optimize_eq settings tree, fun hreached => ?_⟩
    have hnormal : (tree.outcome settings).tree.Normal := normal_of_reachedFixpoint hreached
    refine ⟨hnormal, fun again hpasses => ?_⟩
    rw [optimize_eq, outcome_of_normal hnormal hpasses]
  · exact fun hnormal j => revisePass_of_normal hnormal j

theorem folded_lookup_is_stable :
    let here : Location := ⟨"m.py", 1⟩
    let tree := getattr here (constant here (.int 7)) (constant here (.str "real")) none
    (∃ o, optimize .standard tree = .ok o ∧ o.tree.Normal ∧
      optimize .standard o.tree = .ok ⟨o.tree, 1, true, []⟩) ∧
    ∃ j', (constant here (.int 7)).revisePass.run (Journal.new true) = .ok (.kept, j') := by
  intro here tree
  obtain ⟨⟨o, ho, hstable⟩, -⟩ := fixpoint_normal_and_stable .standard tree
  have hreached : o.reachedFixpoint = true := by
    cases ho
    rfl
  obtain ⟨hnormal, hagain⟩ := hstable hreached
  obtain ⟨j', hrun, -⟩ := (fixpoint_normal_and_stable .standard (constant here (.int 7))).2
    (normal_constant here (.int 7)) (Journal.new true)
  exact ⟨⟨o, ho, hnormal, hagain .standard (by decide)⟩, j', hrun⟩

end Expression

end AttributeOptimizer
