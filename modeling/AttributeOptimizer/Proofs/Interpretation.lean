import AttributeOptimizer.Proofs.KeptEffects

set_option autoImplicit false

/-! # Evaluation from left to right

Evaluating a node evaluates its operands from left to right and then does what the node stands for.
An `Interpretation` says what that is, in any notion of computation: one with a world and
exceptions, one that may run on for ever, or one with several outcomes. The order of evaluation is
the same in all of them, `Interpretation.eval`.

Where the operations of constants and variables can be left out whenever their value is not used
(`Interpretation.Plain`), the effects of an expression do what its evaluation does, less the value
(`execute_effects`), and `Expression.after` is evaluation one after the other (`eval_after`). -/

namespace AttributeOptimizer

/-- A computation whose only contribution is its result: where that is not used, it can be left
    out. -/
def Idle {m : Type → Type} [Monad m] {α : Type} (x : m α) : Prop :=
  ∀ ⦃β : Type⦄ (rest : m β), (do let _ ← x; rest) = rest

theorem idle_pure {m : Type → Type} [Monad m] [LawfulMonad m] {α : Type} (a : α) :
    Idle (pure a : m α) :=
  fun _ rest => pure_bind a fun _ => rest

/-- What the nodes of an expression do, in any notion `m` of computation. -/
structure Interpretation (m : Type → Type) (Value : Type) where
  /-- Raises an exception. -/
  raise : RaisedException → m Value
  /-- The tuple of some values. -/
  tuple : List Value → Value
  /-- Does what any other node stands for, given the values of its operands in order. -/
  operate : Expression → List Value → m Value

namespace Interpretation

open Expression

variable {m : Type → Type} {Value : Type} [Monad m] (I : Interpretation m Value)

mutual

/-- What evaluating an expression does. -/
def eval : Expression → m Value
  | .raise _ exception => I.raise exception
  | .sideEffects _ effects value => do
    let _ ← evalAll effects
    eval value
  | .attributeLookup location source name => do
    I.operate (.attributeLookup location source name) [← eval source]
  | .specialLookup location source name => do
    I.operate (.specialLookup location source name) [← eval source]
  | .getattr location source selector none => do
    I.operate (.getattr location source selector none) [← eval source, ← eval selector]
  | .getattr location source selector (some fallback) => do
    I.operate (.getattr location source selector (some fallback))
      [← eval source, ← eval selector, ← eval fallback]
  | .setattr location source selector value => do
    I.operate (.setattr location source selector value)
      [← eval source, ← eval selector, ← eval value]
  | .hasattr location source selector => do
    I.operate (.hasattr location source selector) [← eval source, ← eval selector]
  | .constant location value => I.operate (.constant location value) []
  | .var location name => I.operate (.var location name) []
  | .tuple _ elements => do
    return I.tuple (← evalAll elements)
  | .call location called args kw => do
    I.operate (.call location called args kw) [← eval called, ← eval args, ← eval kw]

/-- What evaluating expressions one after the other does. -/
def evalAll : List Expression → m (List Value)
  | [] => return []
  | e :: rest => do
    let value ← eval e
    let values ← evalAll rest
    return value :: values

end

/-- Evaluates expressions one after the other, for their effects alone. -/
def execute (es : List Expression) : m Unit :=
  es.forM fun e => do let _ ← I.eval e

/-- Constants and variables have no effect of their own. -/
def Plain : Prop :=
  ∀ (e : Expression) (values : List Value),
    e.kind = .constant ∨ e.kind = .var → Idle (I.operate e values)

@[simp] theorem execute_nil : I.execute [] = pure () := rfl

section Lawful

variable [LawfulMonad m]

theorem evalAll_eq_mapM (es : List Expression) : I.evalAll es = es.mapM I.eval := by
  induction es with
  | nil => simp [evalAll]
  | cons e rest ih => simp [evalAll, ih]

/-- Every node but those that raise, evaluate effects first or build a tuple does its operation with
    the values of its operands. -/
theorem eval_eq_operate {e : Expression} (hraise : e.kind ≠ .raise)
    (heffects : e.kind ≠ .sideEffects) (htuple : e.kind ≠ .tuple) :
    I.eval e = (do I.operate e (← e.children.mapM I.eval)) := by
  cases e with
  | raise location exception => exact absurd rfl hraise
  | sideEffects location effects value => exact absurd rfl heffects
  | getattr location source selector fallback => cases fallback <;> simp [eval, children]
  | tuple location elements => exact absurd rfl htuple
  | _ => simp [eval, children]

@[simp] theorem execute_cons (e : Expression) (rest : List Expression) :
    I.execute (e :: rest) = (do let _ ← I.eval e; I.execute rest) := by
  simp [execute]

theorem execute_append (as bs : List Expression) :
    I.execute (as ++ bs) = (do I.execute as; I.execute bs) := by
  simp [execute]

theorem evalAll_bind {α : Type} (es : List Expression) (rest : m α) :
    (do let _ ← I.evalAll es; rest) = (do I.execute es; rest) := by
  induction es with
  | nil => simp [evalAll]
  | cons e es ih => simp [evalAll, ih]

theorem eval_sideEffects (location : Location) (effects : List Expression) (value : Expression) :
    I.eval (.sideEffects location effects value) = (do I.execute effects; I.eval value) := by
  rw [eval, evalAll_bind]

/-! ## Effects -/

variable {I}

/-- Where the effects of each expression do what its evaluation does, those of all do what the
    evaluation of all does. -/
theorem execute_allEffects_of {es : List Expression}
    (h : ∀ e ∈ es, I.execute e.effects = (do let _ ← I.eval e)) :
    I.execute (allEffects es) = I.execute es := by
  induction es with
  | nil => rfl
  | cons e rest ih =>
      obtain ⟨he, hrest⟩ := List.forall_mem_cons.1 h
      rw [allEffects, execute_append, he, ih hrest, execute_cons]
      simp

/-- The effects of an expression do what its evaluation does. -/
theorem execute_effects (hI : I.Plain) (e : Expression) :
    I.execute e.effects = (do let _ ← I.eval e) := by
  induction e using childInduction with
  | node e ih =>
      cases e with
      | tuple location elements =>
          have helements : I.execute (allEffects elements) = I.execute elements :=
            execute_allEffects_of ih
          -- The tuple itself is not used, so that only the evaluation of its elements is left.
          rw [effects, helements, eval, bind_assoc]
          simp only [pure_bind]
          rw [evalAll_bind, bind_pure]
      | sideEffects location before value =>
          have hbefore := execute_allEffects_of fun c hc => ih c (effect_mem_children hc ..)
          have hvalue := ih value (value_mem_children ..)
          rw [effects, execute_append, hbefore, hvalue, eval_sideEffects, bind_assoc]
      | constant location value => exact (hI _ [] (Or.inl rfl) _).symm
      | var location name => exact (hI _ [] (Or.inr rfl) _).symm
      | _ => simp [effects]

theorem execute_allEffects (hI : I.Plain) (es : List Expression) :
    I.execute (allEffects es) = I.execute es :=
  execute_allEffects_of fun e _ => execute_effects hI e

/-- A node after dropped expressions does what evaluating these and then the node does. -/
theorem eval_after (hI : I.Plain) (node : Expression) (dropped : List Expression)
    (location : Location) :
    I.eval (node.after dropped location) = (do I.execute dropped; I.eval node) := by
  rw [← execute_allEffects hI]
  rcases after_cases node dropped location with
    ⟨hnone, hafter⟩ | ⟨place, inner, value, -, rfl, hafter⟩ | ⟨-, hafter⟩
  · rw [hafter, hnone, execute_nil, pure_bind]
  · rw [hafter, eval_sideEffects, eval_sideEffects, execute_append, bind_assoc]
  · rw [hafter, eval_sideEffects]

end Lawful

end Interpretation

end AttributeOptimizer
