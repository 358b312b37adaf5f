import AttributeOptimizer.Proofs.Evaluation

set_option autoImplicit false

/-! # Dropped expressions are evaluated first

How an evaluation ends, from a world: with a value or an exception, and in some world
(`Interpretation.ending`). Expressions evaluated for their effects alone run in order, each in the
world that the one before left, up to the first that throws (`Interpretation.discard`).

In every interpretation in which constants and variables have no effects of their own, a node after
dropped expressions ends as if these were evaluated for their effects first, and then the node
(`ending_after_dropped`). -/

namespace AttributeOptimizer

variable {World Value Thrown : Type}

namespace Action

/-- The computation gives a value in every world and leaves the world as it is. -/
def IsPure {α : Type} (x : Action World Thrown α) : Prop :=
  ∀ world, ∃ a, x.run.run world = (.ok a, world)

theorem IsPure.idle {α : Type} {x : Action World Thrown α} (h : IsPure x) : Idle x := by
  intro β rest
  refine ExceptT.ext (StateT.ext fun world => ?_)
  obtain ⟨a, ha⟩ := h world
  rw [ExceptT.run_bind, StateT.run_bind, ha]
  rfl

end Action

namespace Interpretation

open Expression

variable (I : Interpretation (Action World Thrown) Value)

/-- How evaluating an expression ends from a world: with a value or an exception, and in a world. -/
def ending (e : Expression) (world : World) : Except Thrown Value × World :=
  (I.eval e).run.run world

/-- How evaluating expressions in order ends, where their values are not used: the first exception
    ends it. -/
def discard : List Expression → World → Except Thrown Unit × World
  | [], world => (.ok (), world)
  | e :: rest, world =>
    match I.ending e world with
    | (.ok _, world') => discard rest world'
    | (.error thrown, world') => (.error thrown, world')

/-- How evaluating an expression ends after others have been evaluated for their effects alone. -/
def endingAfter (others : List Expression) (e : Expression) (world : World) :
    Except Thrown Value × World :=
  match I.discard others world with
  | (.ok _, world') => I.ending e world'
  | (.error thrown, world') => (.error thrown, world')

theorem run_execute (es : List Expression) (world : World) :
    (I.execute es).run.run world = I.discard es world := by
  induction es generalizing world with
  | nil => rfl
  | cons e rest ih =>
      rw [execute_cons, ExceptT.run_bind, StateT.run_bind, discard, ending]
      rcases (I.eval e).run.run world with ⟨value | thrown, world'⟩
      · rfl
      · exact ih world'

theorem run_execute_bind (es : List Expression) (e : Expression) (world : World) :
    (do I.execute es; I.eval e : Action World Thrown Value).run.run world =
      I.endingAfter es e world := by
  rw [ExceptT.run_bind, StateT.run_bind, run_execute, endingAfter]
  rcases I.discard es world with ⟨value | thrown, world'⟩ <;> rfl

/-- In every interpretation in which constants and variables have no effects of their own, and from
    every world: a node after dropped expressions ends as evaluating these, in order and up to the
    first exception, and then the node does, and likewise in the place of a single node; and
    evaluating the effects of an expression ends as evaluating the expression does, its value not
    being used. -/
theorem ending_after_dropped
    (hI : ∀ (e : Expression) (values : List Value),
      e.kind = .constant ∨ e.kind = .var → Action.IsPure (I.operate e values)) :
    (∀ (dropped : List Expression) (old new : Expression) (world : World),
      I.ending (new.after dropped old.location) world = I.endingAfter dropped new world) ∧
    (∀ (old new : Expression) (world : World),
      I.ending (new.inPlaceOf old) world = I.endingAfter [old] new world) ∧
    ∀ (e : Expression) (world : World), I.discard e.effects world = I.discard [e] world := by
  have hplain : I.Plain := fun e values hkind => (hI e values hkind).idle
  have heffects (e : Expression) : I.execute e.effects = I.execute [e] := by
    rw [execute_effects hplain, execute_cons, execute_nil]
  refine ⟨?_, ?_, ?_⟩
  · intro dropped old new world
    rw [ending, eval_after hplain, run_execute_bind]
  · intro old new world
    rw [ending, inPlaceOf, eval_after hplain, heffects, run_execute_bind]
  · intro e world
    rw [← run_execute, heffects, run_execute]

/-- The second element of a dropped tuple raises: the call before it has been made, and neither the
    last element nor the new node is evaluated. -/
theorem raise_in_dropped_tuple_ends_evaluation :
    let here : Location := ⟨"m.py", 1⟩
    let call (name : String) := Expression.call here (.var here name) (.constant here .emptyTuple)
      (.constant here .emptyDict)
    let dropped := Expression.tuple here
      [call "f", .raise here ⟨.keyError, "k"⟩, call "g"]
    let old := Expression.var ⟨"m.py", 2⟩ "old"
    let new := Expression.sideEffects here [call "h"] (.var here "v")
    Machine.traced.interpretation.ending (new.after [.var here "x", dropped] old.location) [] =
      (.error ⟨.keyError, "k"⟩, ["f()"]) := by
  intro here call dropped old new
  have hplain : ∀ (e : Expression) (values : List TracedValue),
      e.kind = .constant ∨ e.kind = .var →
        Action.IsPure (Machine.traced.interpretation.operate e values) := by
    intro e values hkind world
    cases e with
    | constant location value => exact ⟨_, rfl⟩
    | var location name => exact ⟨_, rfl⟩
    | _ => simp [kind] at hkind
  exact (Machine.traced.interpretation.ending_after_dropped hplain).1
    [.var here "x", dropped] old new []

end Interpretation

end AttributeOptimizer
