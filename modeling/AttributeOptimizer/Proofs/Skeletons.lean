import AttributeOptimizer.Proofs.Trees

set_option autoImplicit false

/-! # Trees without their locations

A node is its location, its children and its `Label`, which has all the other data that it carries
(`Expression.eq_of_label_eq`). The `Expression.skeleton` of a tree is what is left of it once all
locations are erased: the labels, in the order in which the tree has them. Nothing else is erased,
since trees with one skeleton that stand at one place are the same tree (`eq_of_skeleton_eq`). -/

namespace AttributeOptimizer

/-- What a node says besides its location and its children: its kind, and the data that nodes of
    that kind carry. -/
inductive Label where
  | attributeLookup (name : String)
  | specialLookup (name : String)
  | getattr
  | setattr
  | hasattr
  | constant (value : Constant)
  | var (name : String)
  | raise (exception : RaisedException)
  | sideEffects
  | tuple
  | call

/-- A tree of labels. -/
inductive Skeleton where
  | node (label : Label) (children : List Skeleton)

/-- The kind of the nodes with a label. -/
def Label.kind : Label → Kind
  | attributeLookup _ => .attributeLookup
  | specialLookup _ => .specialLookup
  | getattr => .getattr
  | setattr => .setattr
  | hasattr => .hasattr
  | constant _ => .constant
  | var _ => .var
  | raise _ => .raise
  | sideEffects => .sideEffects
  | tuple => .tuple
  | call => .call

namespace Expression

/-! ## Labels -/

/-- The label of a node. -/
def label : Expression → Label
  | .attributeLookup _ _ name => .attributeLookup name
  | .specialLookup _ _ name => .specialLookup name
  | .getattr .. => .getattr
  | .setattr .. => .setattr
  | .hasattr .. => .hasattr
  | .constant _ value => .constant value
  | .var _ name => .var name
  | .raise _ exception => .raise exception
  | .sideEffects .. => .sideEffects
  | .tuple .. => .tuple
  | .call .. => .call

@[simp] theorem kind_label (e : Expression) : e.label.kind = e.kind := by
  cases e <;> rfl

@[simp] theorem label_withChildren (e : Expression) (others : List Expression) :
    (e.withChildren others).label = e.label := by
  unfold withChildren
  split <;> try rfl
  split <;> rfl

@[simp] theorem location_withChildren (e : Expression) (others : List Expression) :
    (e.withChildren others).location = e.location := by
  unfold withChildren
  split <;> try rfl
  split <;> rfl

@[simp] theorem label_relocate (place : Location) (e : Expression) :
    (e.relocate place).label = e.label := by
  cases e with
  | getattr _ _ _ fallback => cases fallback <;> simp [relocate, label]
  | _ => simp [relocate, label]

/-- There is nothing in a node but its label, its location and its children. -/
theorem eq_of_label_eq {a b : Expression} (hlabel : a.label = b.label)
    (hlocation : a.location = b.location) (hchildren : a.children = b.children) : a = b := by
  cases a <;> cases b <;> cases hlabel
  case getattr.getattr _ _ _ fallback _ _ _ fallback' =>
    -- A fallback is told from a missing one by the number of children.
    cases fallback <;> cases fallback' <;> simp_all [children, location]
  all_goals simp_all [children, location]

/-! ## Skeletons -/

/-- The tree with all its locations erased. -/
def skeleton (e : Expression) : Skeleton :=
  .node e.label (e.children.attach.map fun c => skeleton c.1)
termination_by e
decreasing_by exact sizeOf_lt_of_mem_children c.2

theorem skeleton_eq (e : Expression) : e.skeleton = .node e.label (e.children.map skeleton) := by
  rw [skeleton, List.map_subtype fun _ _ => rfl, List.unattach_attach]

theorem skeleton_eq_iff {a b : Expression} :
    a.skeleton = b.skeleton ↔
      a.label = b.label ∧ a.children.map skeleton = b.children.map skeleton := by
  rw [skeleton_eq a, skeleton_eq b, Skeleton.node.injEq]

/-- Trees with one skeleton whose nodes all stand at one place are the same tree. -/
theorem eq_of_skeleton_eq {a b : Expression} (h : a.skeleton = b.skeleton) {place : Location}
    (ha : ∀ n ∈ a.nodes, n.location = place) (hb : ∀ n ∈ b.nodes, n.location = place) :
    a = b := by
  induction a using childInduction generalizing b with
  | node a ih =>
      obtain ⟨hlabel, hchildren⟩ := skeleton_eq_iff.1 h
      rw [forall_mem_nodes] at ha hb
      refine eq_of_label_eq hlabel (ha.1.trans hb.1.symm) ?_
      have hlength : a.children.length = b.children.length := by
        simpa using congrArg List.length hchildren
      refine List.ext_getElem hlength fun i hi hi' => ?_
      have hskeleton : a.children[i].skeleton = b.children[i].skeleton := by
        simpa [hi, hi'] using congrArg (·[i]?) hchildren
      exact ih _ (List.getElem_mem hi) hskeleton (ha.2 _ (List.getElem_mem hi))
        (hb.2 _ (List.getElem_mem hi'))

end Expression

end AttributeOptimizer
