import AttributeOptimizer.Expression.Queries

set_option autoImplicit false

/-! # Keeping effects

Where a rule drops an operand, what the operand would have done must still happen, in the same order
and before the replacement is evaluated. `Expression.after` puts the effects of a list of
expressions in front of a node. In front of a node that already evaluates effects first, the new
ones join its list, which evaluates as nesting would. -/

namespace AttributeOptimizer

namespace Expression

/-- The node evaluated after the effects of `dropped`; the very node if they have none. A new node
    stands at `location`. -/
def after (node : Expression) (dropped : List Expression) (location : Location) : Expression :=
  match (dropped.filter mayHaveEffects).flatMap effects with
  | [] => node
  | first :: rest =>
    match node with
    | .sideEffects _ inner value => .sideEffects location (first :: rest ++ inner) value
    | node => .sideEffects location (first :: rest) node

/-- Effects that are none leave the very node. -/
theorem after_eq_self {dropped : List Expression} (h : ∀ e ∈ dropped, e.mayHaveEffects = false)
    (node : Expression) (location : Location) : node.after dropped location = node := by
  have none_kept : dropped.filter mayHaveEffects = [] :=
    List.filter_eq_nil_iff.2 fun e he => by simp [h e he]
  simp [after, none_kept]

/-- The node evaluated after what dropping `old` would lose. -/
def inPlaceOf (node old : Expression) : Expression :=
  node.after old.effects old.location

end Expression

end AttributeOptimizer
