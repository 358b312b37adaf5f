import AttributeOptimizer.Expression.Build
import AttributeOptimizer.Proofs.Passes

set_option autoImplicit false

/-! # Promises of the optimizer

An attempt at a node, whatever has become of its children, keeps to what it reports: a change is
justified, and is of the kind that it is tagged with (`Rewrites.justified`, `Rewrites.folded`,
`Rewrites.raises`). And nothing that the optimizer promises itself is ever found broken, neither by
an attempt nor by a run (`no_promise_is_broken`). -/

namespace AttributeOptimizer

open Expression

namespace Rewrites

variable {node replacement : Expression} {tag : ChangeTag} {description : String}

/-- No rule changes a node without a justification. -/
theorem justified (h : Rewrites node replacement tag description) : description ≠ "" := by
  cases h <;> simp [predicted, toString]

/-- A node that is folded is a constant at its own location. -/
theorem folded (h : Rewrites node replacement tag description) (htag : tag = .constantFolded) :
    ∃ value, replacement = .constant node.location value := by
  cases h with
  | lookupFolds => exact ⟨_, rfl⟩
  | hasattr => exact ⟨_, rfl⟩
  | tupleFolds => exact ⟨_, rfl⟩
  | _ => cases htag

/-- A replacement that propagates an exception raises: it is an operand that does, or a new node
    that raises, after the effects of the operands before. -/
theorem raises (h : Rewrites node replacement tag description)
    (htag : tag = .exceptionPropagated) : replacement.raises = true := by
  have hraise : ∀ location exception, (Expression.raise location exception).raises = true :=
    fun _ exception => exception.cls.derivesFrom_baseException
  cases h with
  | lookupRaises hsource => exact hsource
  | lookupFails => exact hraise _ _
  | specialLookupRaises hsource => exact hsource
  | calledRaises hcalled => exact hcalled
  | argsRaise _ hargs => exact raises_after hargs _ _
  | kwRaises _ _ hkw => exact raises_after hkw _ _
  | constantCalled => exact raises_after (hraise _ _) _ _
  | effectRaises _ hraising => exact raises_after hraising _ _
  | elementRaises _ hraising => exact raises_after hraising _ _
  | _ => cases htag

end Rewrites

namespace Expression

/-! ## Changes are as they are reported -/

/-- Whatever an attempt at a node reports of a change is so: there is a justification, a folded node
    is a constant at the place of the node, and a propagated exception is raised by the replacement.
    Constants, variables, raised exceptions and settings of attributes never change. -/
theorem change_is_as_reported (node : Expression) :
    (∀ replacement tag description,
      node.simplify = .ok (.changed replacement tag description) →
      description ≠ "" ∧
      (tag = .constantFolded → ∃ value, replacement = .constant node.location value) ∧
      (tag = .exceptionPropagated → replacement.raises = true)) ∧
    (node.kind ∈ [.constant, .var, .raise, .setattr] → node.simplify = .ok .unchanged) := by
  constructor
  · intro replacement tag description hchanged
    have hspec := simplify_spec node
    rw [hchanged] at hspec
    cases hspec with
    | changed hrule => exact ⟨hrule.justified, hrule.folded, hrule.raises⟩
  · intro hkind
    cases node <;> first | rfl | simp [kind] at hkind

/-- The keyword arguments of a call raise between two calls, before which the effects of the other
    operands come: the exception stands amid the effects of the replacement. -/
theorem exception_amid_effects_is_raised :
    let here : Location := ⟨"m.py", 1⟩
    let called (name : String) := callEmpty here (var here name)
    let stop := raise here ⟨.keyError, "k"⟩
    let node := call here (attributeLookup here (var here "x") "run") (tuple here [called "f"])
      (sideEffects here [called "g", stop, called "h"] (constant here (.int 1)))
    ∃ replacement description,
      node.simplify = .ok (.changed replacement .exceptionPropagated description) ∧
      description ≠ "" ∧ replacement.raises = true ∧ stop.simplify = .ok .unchanged := by
  intro here called stop node
  obtain ⟨hjustified, -, hraises⟩ := (change_is_as_reported node).1 _ _ _ rfl
  exact ⟨_, _, rfl, hjustified, hraises rfl, (change_is_as_reported stop).2 (by decide)⟩

/-! ## No defect is found -/

/-- The values of a list of operands are found exactly where all of them are constants. -/
theorem exists_mapM_constantOperand_iff {es : List Expression} :
    (∃ values, es.mapM constantOperand = .ok values) ↔ es.all isConstant = true := by
  constructor
  · intro hvalues
    induction es with
    | nil => rfl
    | cons e rest ih =>
        obtain ⟨values, hvalues⟩ := hvalues
        rw [List.mapM_cons] at hvalues
        cases e with
        | constant location value =>
            cases hrest : rest.mapM constantOperand with
            | error failure =>
                rw [hrest] at hvalues
                cases hvalues
            | ok values => exact ih ⟨values, hrest⟩
        | _ => cases hvalues
  · intro hconstant
    obtain ⟨values, hvalues, -⟩ := mapM_constantOperand (List.all_eq_true.1 hconstant)
    exact ⟨values, hvalues⟩

/-- Nothing that the optimizer promises itself is found broken: the values of operands are found
    where these are constants, as the rules that ask for them make sure; every attempt at a node has
    an answer, whatever has become of its children; and so does every pass and every run, from every
    journal and with all settings. -/
theorem no_promise_is_broken :
    (∀ es : List Expression,
      (∃ values, es.mapM constantOperand = .ok values) ↔ es.all isConstant = true) ∧
    (∀ node : Expression, ∃ s, node.simplify = .ok s) ∧
    (∀ (tree : Expression) (j : Journal), ∃ r j',
      tree.revisePass.run j = .ok (r, j') ∧ tree.pass.run j = .ok (r.node tree, j')) ∧
    (∀ (left : Nat) (tree : Expression) (j : Journal), ∃ result j',
      (passes left tree).run j = .ok (result, j')) ∧
    ∀ (settings : Settings) (tree : Expression), ∃ o, optimize settings tree = .ok o := by
  refine ⟨fun _ => exists_mapM_constantOperand_iff, ?_, ?_, ?_, ?_⟩
  · intro node
    exact ⟨node.answer, simplify_eq_answer node⟩
  · intro tree j
    exact ⟨tree.passed, _, revisePass_run tree j, pass_run tree j⟩
  · intro left tree j
    obtain ⟨j', hrun, -⟩ := passes_run left tree j
    exact ⟨_, j', hrun⟩
  · intro settings tree
    exact ⟨tree.outcome settings, optimize_eq settings tree⟩

end Expression

end AttributeOptimizer
