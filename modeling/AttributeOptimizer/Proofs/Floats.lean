import AttributeOptimizer.Constant.Basic
import AttributeOptimizer.Proofs.Trees

set_option autoImplicit false

/-! # Floats within constants and trees

Floats are the only data that a document may fail to give back. `Constant.floats` lists those of a
constant, which is made of other constants as a tree is of nodes (`Constant.partInduction`), and
`Expression.floats` those of the constants of a tree. -/

namespace AttributeOptimizer

/-! ## Constants -/

namespace Constant

mutual

/-- The floats within a constant, in order. -/
def floats : Constant → List Binary64
  | .float value => [value]
  | .tuple elements => elementsFloats elements
  | .dict pairs => pairsFloats pairs
  | _ => []

/-- The floats within the elements of a tuple. -/
def elementsFloats : List Constant → List Binary64
  | [] => []
  | c :: rest => floats c ++ elementsFloats rest

/-- The floats within the pairs of a dictionary. -/
def pairsFloats : List (Constant × Constant) → List Binary64
  | [] => []
  | (key, value) :: rest => floats key ++ floats value ++ pairsFloats rest

end

/-- The constants that a constant is made of. -/
def parts : Constant → List Constant
  | .tuple elements => elements
  | .dict pairs => pairs.flatMap fun p => [p.1, p.2]
  | _ => []

theorem key_mem_parts {pairs : List (Constant × Constant)} {p : Constant × Constant}
    (h : p ∈ pairs) : p.1 ∈ (dict pairs).parts :=
  List.mem_flatMap.2 ⟨p, h, List.mem_cons_self⟩

theorem value_mem_parts {pairs : List (Constant × Constant)} {p : Constant × Constant}
    (h : p ∈ pairs) : p.2 ∈ (dict pairs).parts :=
  List.mem_flatMap.2 ⟨p, h, List.mem_cons_of_mem _ (List.mem_singleton.2 rfl)⟩

theorem elementsFloats_eq_flatMap (elements : List Constant) :
    elementsFloats elements = elements.flatMap floats := by
  induction elements with
  | nil => rfl
  | cons c rest ih => rw [elementsFloats, ih, List.flatMap_cons]

theorem pairsFloats_eq_flatMap (pairs : List (Constant × Constant)) :
    pairsFloats pairs = (pairs.flatMap fun p => [p.1, p.2]).flatMap floats := by
  induction pairs with
  | nil => rfl
  | cons p rest ih =>
      rw [pairsFloats, ih, List.flatMap_cons, List.flatMap_append, List.flatMap_cons,
        List.flatMap_cons, List.flatMap_nil, List.append_nil]

theorem sizeOf_lt_of_mem_parts {c p : Constant} (h : p ∈ c.parts) : sizeOf p < sizeOf c := by
  cases c with
  | tuple elements =>
      have := List.sizeOf_lt_of_mem (show p ∈ elements from h)
      simp only [tuple.sizeOf_spec]
      omega
  | dict pairs =>
      obtain ⟨pair, hpair, hp⟩ := List.mem_flatMap.1 h
      have hsize := List.sizeOf_lt_of_mem hpair
      obtain ⟨key, value⟩ := pair
      simp only [dict.sizeOf_spec, Prod.mk.sizeOf_spec] at hsize ⊢
      rcases List.mem_pair.1 hp with rfl | rfl <;> omega
  | _ => cases h

/-- What passes from the parts of a constant to the constant holds of every constant. -/
@[elab_as_elim]
theorem partInduction {motive : Constant → Prop}
    (constant : ∀ c, (∀ p ∈ c.parts, motive p) → motive c) (c : Constant) : motive c :=
  constant c fun p _ => partInduction constant p
termination_by sizeOf c
decreasing_by exact sizeOf_lt_of_mem_parts ‹_›

theorem floats_subset_of_mem_parts {c p : Constant} (h : p ∈ c.parts) : p.floats ⊆ c.floats := by
  intro x hx
  cases c with
  | tuple elements =>
      rw [floats, elementsFloats_eq_flatMap]
      exact List.mem_flatMap.2 ⟨p, h, hx⟩
  | dict pairs =>
      rw [floats, pairsFloats_eq_flatMap]
      exact List.mem_flatMap.2 ⟨p, h, hx⟩
  | _ => cases h

end Constant

/-! ## Trees -/

namespace Expression

/-- The floats of the constants of a tree. -/
def floats (e : Expression) : List Binary64 :=
  e.nodes.flatMap fun n => (n.constant?.map Constant.floats).getD []

theorem floats_subset_of_mem_nodes {n e : Expression} (h : n ∈ e.nodes) : n.floats ⊆ e.floats := by
  intro x hx
  obtain ⟨d, hd, hx⟩ := List.mem_flatMap.1 hx
  exact List.mem_flatMap.2 ⟨d, mem_nodes_trans hd h, hx⟩

theorem floats_subset_of_mem_children {c e : Expression} (h : c ∈ e.children) :
    c.floats ⊆ e.floats :=
  floats_subset_of_mem_nodes (mem_nodes.2 (Or.inr ⟨c, h, self_mem_nodes c⟩))

/-- The floats of a tree are those of the constant at its root and those of the children. -/
theorem forall_mem_floats {p : Binary64 → Prop} {e : Expression} :
    (∀ x ∈ e.floats, p x) ↔
      (∀ value, e.constant? = some value → ∀ x ∈ value.floats, p x) ∧
        ∀ c ∈ e.children, ∀ x ∈ c.floats, p x := by
  have hflat : ∀ n : Expression, (∀ x ∈ (n.constant?.map Constant.floats).getD [], p x) ↔
      ∀ value, n.constant? = some value → ∀ x ∈ value.floats, p x := by
    intro n
    cases n.constant? <;> simp
  simp only [floats, List.forall_mem_flatMap, hflat]
  exact forall_mem_nodes

/-- Other than in constants there are only the floats of the children. -/
theorem forall_mem_floats_of_children {p : Binary64 → Prop} {e : Expression}
    (hconstant : e.constant? = none) (h : ∀ c ∈ e.children, ∀ x ∈ c.floats, p x) :
    ∀ x ∈ e.floats, p x := by
  refine forall_mem_floats.2 ⟨fun value hvalue => ?_, h⟩
  rw [hconstant] at hvalue
  cases hvalue

theorem floats_constant (location : Location) (value : Constant) :
    (constant location value).floats = value.floats := by
  rw [floats, nodes_eq]
  simp [children, constant?]

end Expression

end AttributeOptimizer
