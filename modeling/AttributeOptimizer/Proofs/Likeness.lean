import AttributeOptimizer.Proofs.Alike
import AttributeOptimizer.Proofs.RoundTrip
import AttributeOptimizer.Proofs.Skeletons

set_option autoImplicit false

/-! # Likeness is equality up to locations

The test `Expression.alike` has an arm for each kind of node. What it decides is one relation of
skeletons, `Skeleton.Matches`: equal labels, constants being compared as constants are, over as many
children, each of which matches (`alike_iff_matches`).

Constants are compared as numbers are, so that likeness is symmetric and transitive and, because of
NaN, no more than that: a tree is like itself exactly if it contains no NaN (`Alike.self_iff`). -/

namespace AttributeOptimizer

/-! ## Numbers -/

namespace Binary64

variable {x y z : Binary64}

theorem numEq_iff :
    x.numEq y = true ↔
      x.isNaN = false ∧ y.isNaN = false ∧ (x = y ∨ x.isZero = true ∧ y.isZero = true) := by
  simp [numEq, and_assoc]

theorem numEq_symm (h : x.numEq y = true) : y.numEq x = true := by
  obtain ⟨hx, hy, hvalue⟩ := numEq_iff.1 h
  exact numEq_iff.2 ⟨hy, hx, hvalue.imp Eq.symm And.symm⟩

theorem numEq_trans (hxy : x.numEq y = true) (hyz : y.numEq z = true) : x.numEq z = true := by
  obtain ⟨hx, -, hfirst⟩ := numEq_iff.1 hxy
  obtain ⟨-, hz, hsecond⟩ := numEq_iff.1 hyz
  refine numEq_iff.2 ⟨hx, hz, ?_⟩
  rcases hfirst with rfl | ⟨hzero, hzero'⟩
  · exact hsecond
  · rcases hsecond with rfl | ⟨-, hzero''⟩
    · exact Or.inr ⟨hzero, hzero'⟩
    · exact Or.inr ⟨hzero, hzero''⟩

theorem numEq_self_iff : x.numEq x = true ↔ x.isNaN = false := by
  rw [numEq_iff]
  exact ⟨fun h => h.1, fun h => ⟨h, h, Or.inl rfl⟩⟩

end Binary64

/-! ## Lists compared member by member

The members of the first list are those that an induction knows of. -/

section Lists

variable {α : Type} {R : α → α → Prop}

theorem forall₂_symm_of_mem {as bs : List α} (h : List.Forall₂ R as bs)
    (hsymm : ∀ a ∈ as, ∀ b, R a b → R b a) : List.Forall₂ R bs as :=
  (forall₂_imp_of_mem h hsymm).flip

theorem forall₂_trans_of_mem {as bs cs : List α} (h : List.Forall₂ R as bs)
    (h' : List.Forall₂ R bs cs) (htrans : ∀ a ∈ as, ∀ b c, R a b → R b c → R a c) :
    List.Forall₂ R as cs := by
  induction h generalizing cs with
  | nil =>
      cases h'
      exact .nil
  | cons hab _ ih =>
      obtain ⟨ha, has⟩ := List.forall_mem_cons.1 htrans
      cases h' with
      | cons hbc hrest => exact .cons (ha _ _ hab hbc) (ih hrest has)

theorem forall₂_concat_iff {as bs : List α} {a b : α} :
    List.Forall₂ R (as ++ [a]) (bs ++ [b]) ↔ List.Forall₂ R as bs ∧ R a b := by
  rw [← List.forall₂_reverse_iff, List.reverse_concat, List.reverse_concat, List.forall₂_cons,
    List.forall₂_reverse_iff, and_comm]

end Lists

/-! ## Constants -/

namespace Constant

theorem equalElements_iff {as bs : List Constant} :
    equalElements as bs = true ↔ List.Forall₂ (fun a b => a.equal b = true) as bs := by
  induction as generalizing bs with
  | nil => cases bs <;> simp [equalElements]
  | cons a as ih => cases bs <;> simp [equalElements, ih]

theorem equalPairs_iff {as bs : List (Constant × Constant)} :
    equalPairs as bs = true ↔
      List.Forall₂ (fun p q => p.1.equal q.1 = true ∧ p.2.equal q.2 = true) as bs := by
  induction as generalizing bs with
  | nil => cases bs <;> simp [equalPairs]
  | cons p as ih => cases bs <;> simp [equalPairs, ih]

theorem parts_of_mem_pairs {pairs : List (Constant × Constant)} {p : Constant × Constant}
    (h : p ∈ pairs) : p.1 ∈ (dict pairs).parts ∧ p.2 ∈ (dict pairs).parts :=
  ⟨List.mem_flatMap.2 ⟨p, h, by simp⟩, List.mem_flatMap.2 ⟨p, h, by simp⟩⟩

theorem equal_symm {a b : Constant} (h : a.equal b = true) : b.equal a = true := by
  induction a using partInduction generalizing b with
  | constant a ih =>
      cases a <;> cases b <;> try exact Bool.noConfusion h
      case float.float => exact Binary64.numEq_symm h
      case tuple.tuple =>
        have helements := equalElements_iff.1 h
        exact equalElements_iff.2 (forall₂_symm_of_mem helements fun p hp _ => ih p hp)
      case dict.dict =>
        refine equalPairs_iff.2 (forall₂_symm_of_mem (equalPairs_iff.1 h) ?_)
        intro p hp q hpq
        obtain ⟨hkey, hvalue⟩ := parts_of_mem_pairs hp
        exact ⟨ih _ hkey hpq.1, ih _ hvalue hpq.2⟩
      all_goals simp_all [equal]

theorem equal_trans {a b c : Constant} (hab : a.equal b = true) (hbc : b.equal c = true) :
    a.equal c = true := by
  induction a using partInduction generalizing b c with
  | constant a ih =>
      cases a <;> cases b <;> (try exact Bool.noConfusion hab) <;> cases c <;>
        try exact Bool.noConfusion hbc
      case float.float.float => exact Binary64.numEq_trans hab hbc
      case tuple.tuple.tuple =>
        have hfirst := equalElements_iff.1 hab
        have hsecond := equalElements_iff.1 hbc
        exact equalElements_iff.2 (forall₂_trans_of_mem hfirst hsecond fun p hp _ _ => ih p hp)
      case dict.dict.dict =>
        refine equalPairs_iff.2
          (forall₂_trans_of_mem (equalPairs_iff.1 hab) (equalPairs_iff.1 hbc) ?_)
        intro p hp q r hpq hqr
        obtain ⟨hkey, hvalue⟩ := parts_of_mem_pairs hp
        exact ⟨ih _ hkey hpq.1 hqr.1, ih _ hvalue hpq.2 hqr.2⟩
      all_goals simp_all [equal]

/-- A constant equals itself exactly if no float within it is NaN. -/
theorem equal_self_iff {c : Constant} :
    c.equal c = true ↔ ∀ x ∈ c.floats, x.isNaN = false := by
  induction c using partInduction with
  | constant c ih =>
      cases c with
      | float value => simp [equal, floats, Binary64.numEq_self_iff]
      | tuple elements =>
          rw [equal, equalElements_iff, List.forall₂_same, floats, elementsFloats_eq_flatMap,
            List.forall_mem_flatMap]
          exact forall₂_congr ih
      | dict pairs =>
          have hparts : (∀ p ∈ (dict pairs).parts, p.equal p = true) ↔
              ∀ p ∈ (dict pairs).parts, ∀ x ∈ p.floats, x.isNaN = false := forall₂_congr ih
          rw [equal, equalPairs_iff, List.forall₂_same, floats, pairsFloats_eq_flatMap,
            List.forall_mem_flatMap]
          refine Iff.trans ?_ hparts
          rw [parts, List.forall_mem_flatMap]
          simp
      | _ => simp [equal, floats]

end Constant

/-! ## Matching labels and skeletons -/

/-- The labels are the same, constants being compared as constants are. -/
def Label.Matches : Label → Label → Prop
  | .constant a, .constant b => a.equal b = true
  | a, b => a = b

/-- The labels match, each with the one that stands in its place, and each has as many children. -/
inductive Skeleton.Matches : Skeleton → Skeleton → Prop where
  | node {a b : Label} {as bs : List Skeleton} :
      a.Matches b → List.Forall₂ Matches as bs → Matches (.node a as) (.node b bs)

namespace Label.Matches

theorem symm {a b : Label} (h : a.Matches b) : b.Matches a := by
  cases a <;> cases b <;> try exact Eq.symm h
  exact Constant.equal_symm h

theorem trans {a b c : Label} (hab : a.Matches b) (hbc : b.Matches c) : a.Matches c := by
  cases a <;> cases b <;> (try cases hab) <;> cases c <;> first | exact hbc | cases hbc | skip
  exact Constant.equal_trans hab hbc

end Label.Matches

theorem Expression.label_matches_self_iff {e : Expression} :
    e.label.Matches e.label ↔
      ∀ value, e.constant? = some value → ∀ x ∈ value.floats, x.isNaN = false := by
  cases e with
  | constant location value =>
      rw [label, Label.Matches, Constant.equal_self_iff]
      simp [constant?]
  | _ => simp [label, Label.Matches, constant?]

theorem Alike.label_matches {a b : Expression} (h : Alike a b) : a.label.Matches b.label := by
  cases h with
  | constant hvalue => exact hvalue
  | _ => rfl

/-! ## What the test of trees decides -/

namespace Expression

variable {a b : Expression}

theorem matches_skeleton_iff :
    a.skeleton.Matches b.skeleton ↔
      a.label.Matches b.label ∧
        List.Forall₂ (fun c d => c.skeleton.Matches d.skeleton) a.children b.children := by
  rw [skeleton_eq a, skeleton_eq b]
  constructor
  · intro h
    cases h with
    | node hlabel hchildren =>
        rw [List.forall₂_map_left_iff, List.forall₂_map_right_iff] at hchildren
        exact ⟨hlabel, hchildren⟩
  · rintro ⟨hlabel, hchildren⟩
    refine .node hlabel ?_
    rw [List.forall₂_map_left_iff, List.forall₂_map_right_iff]
    exact hchildren

theorem alike_of_label_matches (hlabel : a.label.Matches b.label)
    (hchildren : List.Forall₂ Alike a.children b.children) : Alike a b := by
  cases a <;> cases b <;> try cases hlabel
  case constant.constant => exact .constant hlabel
  case var.var => exact .var
  case raise.raise => exact .raise
  case getattr.getattr fallback _ _ _ fallback' =>
    -- Only the number of the children tells that one fallback is missing and the other is not.
    cases fallback <;> cases fallback' <;> simp [children] at hchildren
    · exact .getattr hchildren.1 hchildren.2 .none
    · exact .getattr hchildren.1 hchildren.2.1 (.some hchildren.2.2)
  case sideEffects.sideEffects =>
    obtain ⟨heffects, hvalue⟩ := forall₂_concat_iff.1 hchildren
    exact .sideEffects heffects hvalue
  case tuple.tuple => exact .tuple hchildren
  all_goals simp [children] at hchildren
  case attributeLookup.attributeLookup => exact .attributeLookup hchildren
  case specialLookup.specialLookup => exact .specialLookup hchildren
  case setattr.setattr => exact .setattr hchildren.1 hchildren.2.1 hchildren.2.2
  case hasattr.hasattr => exact .hasattr hchildren.1 hchildren.2
  case call.call => exact .call hchildren.1 hchildren.2.1 hchildren.2.2

/-- Alike are exactly the nodes with matching labels and alike children, as many of them. -/
theorem alike_iff_children :
    Alike a b ↔ a.label.Matches b.label ∧ List.Forall₂ Alike a.children b.children := by
  constructor
  · intro h
    exact ⟨h.label_matches, h.children⟩
  · rintro ⟨hlabel, hchildren⟩
    exact alike_of_label_matches hlabel hchildren

/-- The test compares exactly the skeletons. -/
theorem alike_iff_matches : Alike a b ↔ a.skeleton.Matches b.skeleton := by
  induction a using childInduction generalizing b with
  | node a ih =>
      rw [alike_iff_children, matches_skeleton_iff]
      refine and_congr_right fun _ => ⟨fun h => ?_, fun h => ?_⟩
      · exact forall₂_imp_of_mem h fun c hc _ => (ih c hc).1
      · exact forall₂_imp_of_mem h fun c hc _ => (ih c hc).2

end Expression

/-! ## Likeness is a partial equivalence -/

namespace Alike

open Expression

variable {a b c : Expression}

theorem symm (h : Alike a b) : Alike b a := by
  induction a using childInduction generalizing b with
  | node a ih =>
      obtain ⟨hlabel, hchildren⟩ := alike_iff_children.1 h
      exact alike_iff_children.2 ⟨hlabel.symm, forall₂_symm_of_mem hchildren fun c hc _ => ih c hc⟩

theorem trans (hab : Alike a b) (hbc : Alike b c) : Alike a c := by
  induction a using childInduction generalizing b c with
  | node a ih =>
      obtain ⟨hlabel, hchildren⟩ := alike_iff_children.1 hab
      obtain ⟨hlabel', hchildren'⟩ := alike_iff_children.1 hbc
      exact alike_iff_children.2
        ⟨hlabel.trans hlabel', forall₂_trans_of_mem hchildren hchildren' fun d hd _ _ => ih d hd⟩

theorem self_iff : Alike a a ↔ ∀ x ∈ a.floats, x.isNaN = false := by
  induction a using childInduction with
  | node a ih =>
      rw [alike_iff_children, List.forall₂_same, forall_mem_floats, label_matches_self_iff]
      exact and_congr_right fun _ => forall₂_congr ih

end Alike

namespace Expression

/-- Trees are alike exactly if what is left of them without their locations matches: the same kinds
    of nodes with the same data, constants being compared as constants are, over as many children,
    so that a missing fallback matches a missing one only. Likeness is symmetric and transitive,
    and a tree is like itself exactly if no constant in it contains a NaN. -/
theorem likeness_is_partial_equivalence (a : Expression) :
    (∀ b, a.alike b = true ↔ a.skeleton.Matches b.skeleton) ∧
    (∀ b, a.alike b = true ↔ b.alike a = true) ∧
    (∀ b c, a.alike b = true → b.alike c = true → a.alike c = true) ∧
    (a.alike a = true ↔ ∀ x ∈ a.floats, x.isNaN = false) := by
  simp only [Alike.alike_iff]
  refine ⟨?_, ?_, ?_, Alike.self_iff⟩
  · intro b
    exact alike_iff_matches
  · intro b
    exact ⟨Alike.symm, Alike.symm⟩
  · intro b c hab hbc
    exact hab.trans hbc

/-- The two zeros are alike, at different places and in either order; a dictionary with a NaN is
    unlike itself. -/
theorem nan_is_unlike_itself :
    let here : Location := ⟨"m.py", 1⟩
    let there : Location := ⟨"n.py", 2⟩
    let zero := tuple here [constant here (.float .zero)]
    let minusZero := tuple there [constant here (.float Binary64.zero.neg)]
    let nan := tuple here [constant here (.dict [(.str "k", .float .nan)])]
    minusZero.alike zero = true ∧ zero.alike zero = true ∧ nan.alike nan = false := by
  intro here there zero minusZero nan
  obtain ⟨-, hsymm, htrans, -⟩ := likeness_is_partial_equivalence zero
  have hzeros : zero.alike minusZero = true := by decide
  have hback := (hsymm minusZero).1 hzeros
  refine ⟨hback, htrans minusZero zero hzeros hback, ?_⟩
  have hnan : ¬∀ x ∈ nan.floats, x.isNaN = false := by
    intro hnone
    have hmem : Binary64.nan ∈ nan.floats := by
      simp [nan, floats, nodes_eq, children, constant?, Constant.floats, Constant.pairsFloats]
    exact absurd (hnone _ hmem) (by decide)
  rw [← Bool.not_eq_true, (likeness_is_partial_equivalence nan).2.2.2]
  exact hnan

end Expression

end AttributeOptimizer
