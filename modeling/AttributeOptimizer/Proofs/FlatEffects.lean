import AttributeOptimizer.Proofs.ChangeReport

set_option autoImplicit false

/-! # Effects are flat

What an expression leaves behind when its value is dropped is a list of nodes of the expression,
each of which does something of its own and leaves behind itself alone: no tuple and no effects
before a value are left to be taken apart. It is empty exactly if the expression cannot have
effects. Once a pass has nothing more to change, no node of the list raises unless the expression is
known to (`Normal.raises_of_mem_effects`), so that dropping a value hides no exception from the
rules. -/

namespace AttributeOptimizer

namespace Expression

/-- A tree that comes out of a pass as it was is normal. -/
theorem normal_of_pass {e : Expression} {j j' : Journal} (h : e.pass.run j = .ok (e, j')) :
    e.Normal := by
  have hresult : (e.afterPass, j.attemptAll e.attempts) = (e, j') :=
    Except.ok.inj ((pass_run e j).symm.trans h)
  have hsame : e.afterPass = e := congrArg Prod.fst hresult
  exact changeLog_eq_nil_iff.1 (afterPass_eq_self_iff.1 hsame)

/-- The effects of an expression are none exactly if it cannot have any. They are nodes of it, in
    their order, and each is a lookup, a builtin, a call or a raise, whose only effect is itself: to
    take their effects again changes nothing. None of them raises where a pass leaves the expression
    as it is and the expression is not known to raise. -/
theorem effects_are_flat (e : Expression) :
    (e.effects = [] ↔ e.mayHaveEffects = false) ∧
    e.effects.Sublist e.nodes ∧
    (∀ x ∈ e.effects, x.kind.acts = true ∧ x.effects = [x]) ∧
    allEffects e.effects = e.effects ∧
    (∀ j j' : Journal, e.pass.run j = .ok (e, j') → e.raises = false →
      ∀ x ∈ e.effects, x.raises = false) :=
  ⟨effects_eq_nil_iff, effects_sublist_nodes e,
    fun _ hx => ⟨acts_of_mem_effects hx, effects_of_mem_effects hx⟩, allEffects_effects e,
    fun _ _ hpass hquiet _ hx => (normal_of_pass hpass).raises_of_mem_effects hquiet hx⟩

/-- A tuple of a call and of a value after a lookup is left as it is by a pass: its effects are the
    call and the lookup, and neither raises. -/
theorem effects_of_settled_tuple :
    let here : Location := ⟨"m.py", 1⟩
    let called := call here (var here "f") (constant here .emptyTuple) (constant here .emptyDict)
    let lookup := attributeLookup here (var here "x") "foo"
    let tree := tuple here [called, constant here (.int 1), sideEffects here [lookup] (var here "y")]
    (∃ j', tree.pass.run (Journal.new true) = .ok (tree, j')) ∧ tree.raises = false ∧
      tree.effects = [called, lookup] ∧ ∀ x ∈ tree.effects, x.raises = false := by
  intro here called lookup tree
  have hpass : ∃ j', tree.pass.run (Journal.new true) = .ok (tree, j') := ⟨_, rfl⟩
  have hquiet : tree.raises = false := rfl
  obtain ⟨j', hrun⟩ := hpass
  obtain ⟨-, -, -, -, hraises⟩ := effects_are_flat tree
  exact ⟨⟨j', hrun⟩, hquiet, rfl, hraises (Journal.new true) j' hrun hquiet⟩

end Expression

end AttributeOptimizer
