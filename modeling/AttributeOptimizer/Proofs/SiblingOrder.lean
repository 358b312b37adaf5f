import AttributeOptimizer.Proofs.Passes
import Mathlib.Data.List.FinRange
import Mathlib.Data.List.Perm.Basic

set_option autoImplicit false

/-! # Siblings in any order

A pass visits the children of a node from the first to the last. `Expression.passInOrder` is a pass
that visits them in some other order, chosen anew at every node. It leaves the same in the place of
the tree, since attempts do not read the journal (`passInOrder_run`), and makes attempts at the same
nodes in another order (`attemptsInOrder_perm`). -/

namespace AttributeOptimizer

/-- An order of visits at every place of a tree: which of so many siblings is visited at which turn.
    A place is the way to it from the root, as the numbers of the children taken, the last first. -/
abbrev SiblingOrder := List Nat → (count : Nat) → Equiv.Perm (Fin count)

namespace SiblingOrder

/-- From the first sibling to the last. -/
def inTurn : SiblingOrder := fun _ _ => Equiv.refl _

end SiblingOrder

namespace Expression

/-- One pass over the tree at a place, with siblings visited in the given order. -/
def passInOrder (order : SiblingOrder) (place : List Nat) (e : Expression) : Journaled Revision := do
  let visited := order place e.children.length
  let revisions ← Vector.ofFnM fun turn =>
    passInOrder order (visited turn :: place) (e.children.get (visited turn))
  settle attempt e (List.ofFn fun child => revisions.get (visited.symm child))
termination_by e
decreasing_by exact sizeOf_lt_of_mem_children (List.get_mem ..)

/-- The nodes that such a pass makes an attempt at, in order. -/
def attemptsInOrder (order : SiblingOrder) (place : List Nat) (e : Expression) : List Expression :=
  let visited := order place e.children.length
  ((List.finRange e.children.length).flatMap fun turn =>
    attemptsInOrder order (visited turn :: place) (e.children.get (visited turn))) ++
    [e.overChildren afterPass]
termination_by e
decreasing_by exact sizeOf_lt_of_mem_children (List.get_mem ..)

/-- Visits made turn by turn, none of which comes upon a defect. -/
theorem ofFnM_run {count : Nat} {visit : Fin count → Journaled Revision}
    {r : Fin count → Revision} {visited : Fin count → List Expression}
    (h : ∀ (turn : Fin count) (j : Journal),
      (visit turn).run j = .ok (r turn, j.attemptAll (visited turn))) (j : Journal) :
    (Vector.ofFnM visit).run j =
      .ok (Vector.ofFn r, j.attemptAll ((List.finRange count).flatMap visited)) := by
  induction count with
  | zero =>
      rw [Vector.ofFnM_zero]
      rfl
  | succ count ih =>
      -- The last turn is made after all the others: it is the one to take off.
      rw [Vector.ofFnM_succ, run_bind_of_ok (ih fun turn => h turn.castSucc),
        run_bind_of_ok (h (Fin.last count) _), List.finRange_succ_last, List.flatMap_append,
        List.flatMap_map, List.flatMap_singleton, Journal.attemptAll_append, Vector.ofFn_succ]
      rfl

/-- In any order a pass leaves the same in the place of the tree, and the journal of its
    attempts. -/
theorem passInOrder_run (order : SiblingOrder) (place : List Nat) (e : Expression) (j : Journal) :
    (passInOrder order place e).run j =
      .ok (e.passed, j.attemptAll (attemptsInOrder order place e)) := by
  induction e using childInduction generalizing place j with
  | node e ih =>
      rw [passInOrder, attemptsInOrder]
      generalize order place e.children.length = visited
      have hvisits := fun turn => ih _ (List.get_mem e.children (visited turn))
        (visited turn :: place)
      -- Every child gets the revision that was made at its own turn.
      have hget : ∀ child, (Vector.ofFn fun turn => (e.children.get (visited turn)).passed).get
          (visited.symm child) = (e.children.get child).passed := by
        intro child
        exact (Vector.getElem_ofFn (visited.symm child).isLt).trans (by simp)
      have hrevisions : (List.ofFn fun child => (Vector.ofFn fun turn =>
          (e.children.get (visited turn)).passed).get (visited.symm child)) =
            e.children.map passed := by
        simp only [hget]
        exact List.ofFn_getElem_eq_map e.children passed
      rw [run_bind_of_ok (ofFnM_run hvisits j), hrevisions, settle_run, Journal.attemptAll_append]

/-- The attempts of a pass in any order are those of the pass itself. -/
theorem attemptsInOrder_perm (order : SiblingOrder) (place : List Nat) (e : Expression) :
    (attemptsInOrder order place e).Perm e.attempts := by
  induction e using childInduction generalizing place with
  | node e ih =>
      rw [attemptsInOrder, attempts_eq]
      generalize order place e.children.length = visited
      let turns := List.finRange e.children.length
      let below := fun child => attempts (e.children.get child)
      refine List.Perm.append_right _ ?_
      calc
        List.Perm (turns.flatMap fun turn =>
            attemptsInOrder order (visited turn :: place) (e.children.get (visited turn)))
          (turns.flatMap fun turn => below (visited turn)) :=
          List.Perm.flatMap_left turns fun turn _ => ih _ (List.get_mem ..) _
        _ = (turns.map visited).flatMap below := (List.flatMap_map visited below turns).symm
        List.Perm _ (turns.flatMap below) := visited.map_finRange_perm.flatMap_right below
        _ = (turns.map e.children.get).flatMap attempts :=
          (List.flatMap_map e.children.get attempts turns).symm
        _ = e.children.flatMap attempts := by rw [List.map_get_finRange]

/-- From the first sibling to the last the attempts are in the order of the pass itself. -/
theorem attemptsInOrder_inTurn (place : List Nat) (e : Expression) :
    attemptsInOrder .inTurn place e = e.attempts := by
  induction e using childInduction generalizing place with
  | node e ih =>
      let turns := List.finRange e.children.length
      have hchildren : (turns.flatMap fun turn =>
            attemptsInOrder .inTurn (turn.val :: place) (e.children.get turn)) =
          (turns.map e.children.get).flatMap attempts := by
        rw [List.flatMap_map]
        exact List.flatMap_congr fun turn _ => ih _ (List.get_mem ..) _
      rw [List.map_get_finRange] at hchildren
      rw [attemptsInOrder, attempts_eq, ← hchildren]
      rfl

/-- The pass itself visits siblings from the first to the last. -/
theorem passInOrder_inTurn (place : List Nat) (e : Expression) :
    passInOrder .inTurn place e = e.revisePass := by
  refine eq_of_run_eq_ok (fun j => ?_) (revisePass_run e)
  rw [passInOrder_run, attemptsInOrder_inTurn]

end Expression

end AttributeOptimizer
