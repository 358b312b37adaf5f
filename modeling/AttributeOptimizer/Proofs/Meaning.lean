import AttributeOptimizer.Proofs.Evaluation
import AttributeOptimizer.Proofs.Passes

set_option autoImplicit false

/-! # Optimizing keeps the meaning

Each rule keeps what evaluating the node does (`eval_of_rewrites`). A pass applies rules to nodes
over children that have kept their meaning, and a run is passes one after the other, so both keep
the meaning of the whole tree (`eval_afterPass`, `eval_outcomeFrom`).

One rule asks for more than a lawful machine: the plain lookup that takes the place of a lookup
through the builtin does not use the value of a fallback. A machine suits a tree where that does not
matter, because the tree has no fallbacks or because the machine ignores them; no rule makes a
lookup through the builtin, so the machine goes on to suit what is made of the tree. -/

namespace AttributeOptimizer

namespace Expression

/-- The expression whose value a lookup through the builtin has for a missing attribute. -/
def fallback? : Expression → Option Expression
  | .getattr _ _ _ fallback => fallback
  | _ => none

theorem fallback?_overChildren (f : Expression → Expression) (e : Expression) :
    (e.overChildren f).fallback? = e.fallback?.map f := by
  cases e <;> simp [fallback?]

end Expression

open Expression

variable {World Value Thrown : Type} {M : Machine World Value Thrown}

namespace Machine

/-- Where the tree has a fallback, the machine ignores its value. -/
def Suits (M : Machine World Value Thrown) (e : Expression) : Prop :=
  ∀ n ∈ e.nodes, n.fallback? ≠ none → M.IgnoresFallbacks

theorem IgnoresFallbacks.suits (h : M.IgnoresFallbacks) (e : Expression) : M.Suits e :=
  fun _ _ _ => h

theorem suits_iff {e : Expression} :
    M.Suits e ↔ (e.fallback? ≠ none → M.IgnoresFallbacks) ∧ ∀ c ∈ e.children, M.Suits c :=
  forall_mem_nodes

/-- A machine suits what a rule makes of a node whose children it suits. -/
theorem Suits.of_rewrites {node replacement : Expression} {tag : ChangeTag} {description : String}
    (h : Rewrites node replacement tag description) (hchildren : ∀ c ∈ node.children, M.Suits c) :
    M.Suits replacement := by
  -- No rule makes a lookup through the builtin.
  refine forall_mem_nodes_of_rewrites h hchildren (fun _ _ hfallback => absurd rfl hfallback) ?_
  intro n hmade _ hfallback
  cases n with
  | getattr => rcases hmade with hmade | hmade | hmade <;> cases hmade
  | _ => exact absurd rfl hfallback

theorem Suits.afterPass {e : Expression} (h : M.Suits e) : M.Suits e.afterPass := by
  induction e using childInduction with
  | node e ih =>
      obtain ⟨hfallback, hsuits⟩ := suits_iff.1 h
      have hchildren : ∀ c ∈ (e.overChildren Expression.afterPass).children, M.Suits c :=
        forall_mem_children_overChildren.2 fun c hc => ih c hc (hsuits c hc)
      rcases afterPass_cases e with ⟨hsame, -⟩ | ⟨tag, description, hrewrites⟩
      · rw [hsame, suits_iff, fallback?_overChildren]
        exact ⟨fun hsome => hfallback (by simpa using hsome), hchildren⟩
      · exact Suits.of_rewrites hrewrites hchildren

end Machine

namespace Expression

/-! ## The rules -/

/-- Each rule keeps what evaluating the node does, provided that the machine ignores the fallback of
    the node, if it has one. -/
theorem eval_of_rewrites (hM : M.Lawful) {node replacement : Expression} {tag : ChangeTag}
    {description : String} (h : Rewrites node replacement tag description)
    (hfallback : node.fallback? ≠ none → M.IgnoresFallbacks) :
    replacement.eval M = node.eval M := by
  -- An operand that raises ends the evaluation: the operation and the operands after it may be left
  -- out, while those before it come first in both.
  cases h with
  | lookupRaises hraises => exact ((aborts_eval M hraises).bind_self _).symm
  | lookupFolds hfolds => simp [eval, hM.lookup_value hfolds]
  | lookupFails hfails => simp [eval, hM.lookup_missing hfails]
  | specialLookupRaises hraises => exact ((aborts_eval M hraises).bind_self _).symm
  | @getattr _ _ _ _ fallback heffects =>
      -- The receiver has its value at once, so evaluating it after the fallback is the same.
      obtain ⟨receiver, hreceiver⟩ := eval_of_effects_eq_nil M heffects
      rw [eval_after]
      cases fallback with
      | none => simp [eval, hreceiver, hM.getattr_name]
      | some fallback =>
          have hignores : M.IgnoresFallbacks := hfallback (Option.some_ne_none _)
          simp [eval, hreceiver, hignores _ _ _]
  | hasattr => simp [eval, hM.hasattr_constant]
  | calledRaises hraises => exact ((aborts_eval M hraises).bind_self _).symm
  | argsRaise _ hraises =>
      have habort := aborts_eval M hraises
      simp only [eval_after, eval, execute_cons, execute_nil, bind_assoc, pure_bind]
      exact bind_congr fun _ => (habort.bind_self _).symm
  | kwRaises _ _ hraises =>
      have habort := aborts_eval M hraises
      simp only [eval_after, eval, execute_cons, execute_nil, bind_assoc, pure_bind]
      exact bind_congr fun _ => bind_congr fun _ => (habort.bind_self _).symm
  | constantCalled => simp [eval_after, eval, hM.call_constant]
  | effectRaises _ hraises =>
      have habort := aborts_eval M hraises
      simp only [eval_after, eval_sideEffects, execute_append, execute_cons, bind_assoc]
      exact bind_congr fun _ => (habort.bind_self _).symm
  | @effectsRemoved location effects value hidle =>
      have hnone : allEffects effects = [] := allEffects_eq_nil_iff.2 hidle
      rw [eval_sideEffects, execute_of_effects_eq_nil M hnone, pure_bind]
  | @effectsFiltered location effects value =>
      rw [eval_sideEffects, eval_sideEffects, ← execute_allEffects M effects,
        ← flatMap_effects_filter, ← allEffects_eq_flatMap, execute_allEffects]
  | elementRaises _ hraises =>
      have habort := aborts_eval M hraises
      simp only [eval_after, eval, ← evalAll_bind, evalAll_append, evalAll, bind_assoc]
      exact bind_congr fun _ => (habort.bind_self _).symm
  | tupleFolds hvalues =>
      rw [eval, eval, evalAll_constants M hvalues, pure_bind, hM.tuple_constants]

/-! ## Passes and runs -/

theorem eval_afterAttempt (hM : M.Lawful) {node : Expression}
    (hfallback : node.fallback? ≠ none → M.IgnoresFallbacks) :
    node.afterAttempt.eval M = node.eval M := by
  rcases afterAttempt_cases node with ⟨hsame, -⟩ | ⟨tag, description, hrewrites⟩
  · rw [hsame]
  · exact eval_of_rewrites hM hrewrites hfallback

theorem eval_afterPass (hM : M.Lawful) {e : Expression} (hsuits : M.Suits e) :
    e.afterPass.eval M = e.eval M := by
  induction e using childInduction with
  | node e ih =>
      obtain ⟨hfallback, hchildren⟩ := Machine.suits_iff.1 hsuits
      rw [afterPass_eq, eval_afterAttempt hM, eval_overChildren M]
      · exact fun c hc => ih c hc (hchildren c hc)
      · rw [fallback?_overChildren]
        exact fun hsome => hfallback (by simpa using hsome)

theorem eval_outcomeFrom (hM : M.Lawful) {tree : Expression} (hsuits : M.Suits tree)
    (recording : Bool) (done left : Nat) :
    (outcomeFrom recording done left tree).tree.eval M = tree.eval M := by
  induction left generalizing done tree with
  | zero => rfl
  | succ left ih =>
      rw [outcomeFrom]
      split
      · exact eval_afterPass hM hsuits
      · exact (ih hsuits.afterPass (done + 1)).trans (eval_afterPass hM hsuits)

/-- Optimizing succeeds and keeps the meaning of every tree on every lawful machine that suits it,
    and so does each attempt at a node: from every world, evaluating what is left gives the same
    value or throws the same exception, and leaves the same world. -/
theorem optimize_keeps_meaning (hM : M.Lawful) {tree : Expression} (hsuits : M.Suits tree) :
    (∃ s, tree.simplify = .ok s ∧ (s.node tree).eval M = tree.eval M) ∧
      ∀ settings : Settings, ∃ o, optimize settings tree = .ok o ∧
        o.tree.eval M = tree.eval M := by
  constructor
  · refine ⟨tree.answer, simplify_eq_answer tree, ?_⟩
    exact eval_afterAttempt hM (Machine.suits_iff.1 hsuits).1
  · intro settings
    refine ⟨tree.outcome settings, optimize_eq settings tree, ?_⟩
    exact eval_outcomeFrom hM hsuits settings.recordChanges 0 settings.maxPasses

theorem traced_meaning_is_kept :
    let here : Location := ⟨"m.py", 1⟩
    let fallback := call here (var here "make_default") (constant here .emptyTuple)
      (constant here .emptyDict)
    let tree := getattr here (var here "obj") (constant here (.str "foo")) (some fallback)
    ∃ o, optimize .standard tree = .ok o ∧
      (o.tree.eval Machine.traced.ignoringFallbacks).run.run [] =
        (.ok (.object "obj.foo"), ["make_default()", "obj.foo"]) := by
  intro here fallback tree
  have hM := Machine.lawful_traced.ignoringFallbacks
  have hsuits := Machine.lawful_traced.ignoresFallbacks.suits tree
  obtain ⟨o, ho, heval⟩ := (optimize_keeps_meaning hM hsuits).2 .standard
  exact ⟨o, ho, by rw [heval]; rfl⟩

end Expression

end AttributeOptimizer
