import AttributeOptimizer.Proofs.Alike
import AttributeOptimizer.Proofs.ChangeBound
import AttributeOptimizer.Proofs.NormalForm

set_option autoImplicit false

/-! # A pass reports a change exactly when it makes one

Whether a run goes on is decided by the number of changes that a pass counts; which nodes are kept
is decided on its own, at every node, by what became of its children. The two agree: a pass counts
no change exactly when it hands the very tree back (`passed_eq_kept_iff`), and where it counts one
the tree that it leaves is lighter, hence another one even if locations are left aside. -/

namespace AttributeOptimizer

/-! ## Weights and locations -/

/-- Alike trees weigh the same. -/
theorem Alike.weight_eq {a b : Expression} (h : Alike a b) : a.weight = b.weight := by
  induction a using Expression.childInduction generalizing b with
  | node a ih =>
      have hkind : a.kind = b.kind := by cases h <;> rfl
      have hchildren : a.children.map Expression.weight = b.children.map Expression.weight :=
        Alike.map_eq h.children ih
      rw [Expression.weight_eq, Expression.weight_eq b, hkind, Expression.totalWeight, hchildren]
      rfl

namespace Expression

@[simp] theorem weight_relocate (place : Location) (e : Expression) :
    (e.relocate place).weight = e.weight := by
  induction e using childInduction with
  | node e ih =>
      have hchildren : totalWeight (e.relocate place).children = totalWeight e.children := by
        rw [children_relocate, totalWeight, totalWeight, List.map_map]
        exact congrArg List.sum (List.map_congr_left ih)
      rw [weight_eq, weight_eq e, kind_relocate, hchildren]

/-! ## Passes that change something -/

/-- A tree loses weight with every change of a pass. -/
theorem length_changeLog_add_weight_le (e : Expression) :
    e.changeLog.length + e.afterPass.weight ≤ e.weight :=
  (changes_afterPass e).length_add_weight_le

/-- A pass that reports a change leaves a lighter tree. -/
theorem weight_afterPass_lt {e : Expression} (h : e.changeLog ≠ []) :
    e.afterPass.weight < e.weight := by
  have hlength := e.length_changeLog_add_weight_le
  have hpos := List.length_pos_iff.2 h
  omega

theorem afterPass_eq_self_iff {e : Expression} : e.afterPass = e ↔ e.changeLog = [] := by
  constructor
  · intro hsame
    by_contra hchanges
    have hless := weight_afterPass_lt hchanges
    rw [hsame] at hless
    exact Nat.lt_irrefl _ hless
  · intro hnone
    exact afterPass_of_normal (changeLog_eq_nil_iff.1 hnone)

/-- A pass keeps the very tree exactly when it reports no change. -/
theorem passed_eq_kept_iff {e : Expression} : e.passed = .kept ↔ e.changeLog = [] := by
  constructor
  · intro hkept
    rw [← afterPass_eq_self_iff, afterPass, hkept]
    rfl
  · intro hnone
    exact passed_of_normal (changeLog_eq_nil_iff.1 hnone)

/-- The pass rewrites the node: a rule applies to it, over what the pass makes of its children. -/
def IsRewritten (n : Expression) : Prop :=
  ∃ replacement tag description,
    (n.overChildren afterPass).simplify = .ok (.changed replacement tag description)

theorem mem_attempts {x e : Expression} :
    x ∈ e.attempts ↔ ∃ n ∈ e.nodes, n.overChildren afterPass = x := by
  induction e using childInduction with
  | node e ih =>
      rw [attempts_eq, nodes_eq, List.mem_append, List.mem_flatMap, List.mem_singleton]
      constructor
      · rintro (⟨c, hc, hx⟩ | rfl)
        · obtain ⟨n, hn, hx⟩ := (ih c hc).1 hx
          exact ⟨n, List.mem_cons_of_mem _ (List.mem_flatMap.2 ⟨c, hc, hn⟩), hx⟩
        · exact ⟨e, List.mem_cons_self .., rfl⟩
      · rintro ⟨n, hn, rfl⟩
        rcases List.mem_cons.1 hn with rfl | hn
        · exact Or.inr rfl
        · obtain ⟨c, hc, hn⟩ := List.mem_flatMap.1 hn
          exact Or.inl ⟨c, hc, (ih c hc).2 ⟨n, hn, rfl⟩⟩

theorem isRewritten_iff {n : Expression} :
    n.IsRewritten ↔ (n.overChildren afterPass).change? ≠ none := by
  rw [IsRewritten, simplify_eq_answer, change?]
  cases (n.overChildren afterPass).answer <;> simp

/-- A pass reports a change exactly if it rewrites some node of the tree, however deep. -/
theorem changeLog_ne_nil_iff {e : Expression} :
    e.changeLog ≠ [] ↔ ∃ n ∈ e.nodes, n.IsRewritten := by
  constructor
  · intro hchanges
    obtain ⟨change, hmem⟩ := List.exists_mem_of_ne_nil _ hchanges
    obtain ⟨x, hx, hchange⟩ := List.mem_filterMap.1 hmem
    obtain ⟨n, hn, rfl⟩ := mem_attempts.1 hx
    exact ⟨n, hn, isRewritten_iff.2 (by simp [hchange])⟩
  · rintro ⟨n, hn, hrewritten⟩ hnone
    have hquiet := List.filterMap_eq_nil_iff.1 hnone _ (mem_attempts.2 ⟨n, hn, rfl⟩)
    exact isRewritten_iff.1 hrewritten hquiet

/-- From every journal, a pass gives the tree that it leaves and says whether that is the very tree
    that it was given. It counts no change exactly if it is, and exactly if the two are equal,
    locations included; it counts some exactly if it rewrites some node, however deep, and then the
    trees differ in more than their locations. -/
theorem pass_counts_what_it_changes (tree : Expression) (j : Journal) :
    ∃ r j', tree.revisePass.run j = .ok (r, j') ∧ tree.pass.run j = .ok (r.node tree, j') ∧
      (j'.changesInPass = j.changesInPass ↔ r = .kept) ∧
      (r = .kept ↔ r.node tree = tree) ∧
      (j.changesInPass < j'.changesInPass ↔ ∃ n ∈ tree.nodes, n.IsRewritten) ∧
      ((∃ n ∈ tree.nodes, n.IsRewritten) →
        (r.node tree).alike tree = false ∧ tree.alike (r.node tree) = false ∧
          ∀ place : Location, (r.node tree).relocate place ≠ tree.relocate place) := by
  have hcount : (j.attemptAll tree.attempts).changesInPass =
      j.changesInPass + tree.changeLog.length := j.changesInPass_attemptAll tree.attempts
  refine ⟨tree.passed, j.attemptAll tree.attempts, revisePass_run tree j, pass_run tree j,
    ?_, ?_, ?_, ?_⟩
  · rw [hcount, passed_eq_kept_iff, Nat.add_eq_left, List.length_eq_zero_iff]
  · rw [passed_eq_kept_iff, ← afterPass_eq_self_iff]
    rfl
  · rw [hcount, ← changeLog_ne_nil_iff, Nat.lt_add_right_iff_pos, List.length_pos_iff]
  · intro hrewritten
    have hlighter := weight_afterPass_lt (changeLog_ne_nil_iff.2 hrewritten)
    refine ⟨?_, ?_, ?_⟩
    · rw [← Bool.not_eq_true]
      exact fun halike => hlighter.ne (alike_of_alike halike).weight_eq
    · rw [← Bool.not_eq_true]
      exact fun halike => hlighter.ne' (alike_of_alike halike).weight_eq
    · intro place hequal
      have hweight := congrArg weight hequal
      rw [weight_relocate, weight_relocate] at hweight
      exact hlighter.ne hweight

/-- The name of a lookup deep in a call is literal: the pass counts one change, and the calls around
    the lookup are new nodes. -/
theorem deep_change_is_counted :
    let here : Location := ⟨"m.py", 1⟩
    let lookup := getattr here (var here "x") (constant here (.str "foo")) none
    let tree := call here (var here "f") (tuple here [var here "y", lookup])
      (constant here .emptyDict)
    ∃ r j', tree.revisePass.run (Journal.new true) = .ok (r, j') ∧ 0 < j'.changesInPass ∧
      r ≠ .kept ∧ (r.node tree).alike tree = false := by
  intro here lookup tree
  have hmem : lookup ∈ tree.nodes := by
    simp [tree, nodes_eq (.call ..), nodes_eq (.tuple ..), children, self_mem_nodes]
  have hrewritten : ∃ n ∈ tree.nodes, n.IsRewritten := ⟨lookup, hmem, _, _, _, rfl⟩
  obtain ⟨r, j', hrun, -, hkept, -, hcount, hdiffers⟩ :=
    pass_counts_what_it_changes tree (Journal.new true)
  have hrises := hcount.2 hrewritten
  refine ⟨r, j', hrun, hrises, fun h => ?_, (hdiffers hrewritten).1⟩
  exact hrises.ne' (hkept.2 h)

end Expression

end AttributeOptimizer
