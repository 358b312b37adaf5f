import AttributeOptimizer.Proofs.Skeletons

set_option autoImplicit false

/-! # Children by role

`Expression.child?`, `Expression.childSequence` and `Expression.withChild` tell the roles of a node
apart on their own, and `Kind.roles` lists those that its kind declares. The four agree: a role can
be read, and replaced, exactly if it is declared, as what it is, a single child or a sequence.
Reading and replacing a single child obey the laws of a field of a record, and the children of a
node are those in its roles, one role after the other. -/

namespace AttributeOptimizer

namespace Expression

variable {e x : Expression} {role : Role} {c : Expression}

/-! ## Which roles a node has -/

theorem isOk_child? (e : Expression) (role : Role) :
    (e.child? role).isOk = (e.kind.declares role && !role.isSequence) := by
  cases e <;> cases role <;> rfl

theorem isOk_childSequence (e : Expression) (role : Role) :
    (e.childSequence role).isOk = (e.kind.declares role && role.isSequence) := by
  cases e <;> cases role <;> rfl

theorem isOk_withChild (e : Expression) (role : Role) (c : Expression) :
    (e.withChild role c).isOk = (e.child? role).isOk := by
  cases e <;> cases role <;> rfl

theorem eq_noSuchRole_of_child? {defect : Defect} (h : e.child? role = .error defect) :
    defect = .noSuchRole e.kind role e.location := by
  unfold child? at h
  split at h <;> cases h
  rfl

theorem eq_noSuchRole_of_childSequence {defect : Defect}
    (h : e.childSequence role = .error defect) :
    defect = .noSuchRole e.kind role e.location := by
  unfold childSequence at h
  split at h <;> cases h
  rfl

theorem eq_noSuchRole_of_withChild {defect : Defect} (h : e.withChild role c = .error defect) :
    defect = .noSuchRole e.kind role e.location := by
  unfold withChild at h
  split at h <;> cases h
  rfl

/-! ## Replacing a child -/

theorem child?_of_withChild (h : e.withChild role c = .ok x) : x.child? role = .ok (some c) := by
  unfold withChild at h
  split at h <;> cases h <;> rfl

theorem child?_of_withChild_of_ne (h : e.withChild role c = .ok x) {other : Role}
    (hother : other ≠ role) : x.child? other = e.child? other := by
  unfold withChild at h
  split at h <;> cases h <;> cases other <;> first | rfl | exact absurd rfl hother

theorem childSequence_of_withChild (h : e.withChild role c = .ok x) (other : Role) :
    x.childSequence other = e.childSequence other := by
  unfold withChild at h
  split at h <;> cases h <;> cases other <;> rfl

theorem label_of_withChild (h : e.withChild role c = .ok x) : x.label = e.label := by
  unfold withChild at h
  split at h <;> cases h <;> rfl

theorem location_of_withChild (h : e.withChild role c = .ok x) : x.location = e.location := by
  unfold withChild at h
  split at h <;> cases h <;> rfl

/-- Putting the child back that is there changes nothing. -/
theorem withChild_of_child? (h : e.child? role = .ok (some c)) : e.withChild role c = .ok e := by
  unfold child? at h
  split at h <;> cases h <;> rfl

/-- Of a child that is replaced again nothing is left. -/
theorem withChild_of_withChild (h : e.withChild role c = .ok x) (d : Expression) :
    x.withChild role d = e.withChild role d := by
  unfold withChild at h
  split at h <;> cases h <;> rfl

/-! ## All roles of a node -/

/-- The children in a role: those of a sequence, or the single child if it is present. -/
def childrenIn (e : Expression) (role : Role) : List Expression :=
  match e.childSequence role, e.child? role with
  | .ok children, _ => children
  | .error _, .ok child => child.toList
  | .error _, .error _ => []

theorem children_eq_flatMap (e : Expression) :
    e.children = e.kind.roles.flatMap e.childrenIn := by
  cases e <;> simp [children, kind, Kind.roles, childrenIn, child?, childSequence]

/-- A single child can be read, and replaced, in exactly the declared roles that are no sequences, a
    sequence in exactly those that are; whatever fails says which node has no such role. After a
    child was replaced, it is the child in its role, and the other roles, the data of the node and
    its location are what they were; replacing a child by itself gives the node, and replacing it
    twice is replacing it once. All children are those in the declared roles, in their order. -/
theorem roles_are_lawful (e : Expression) (role : Role) :
    ((e.child? role).isOk = true ↔ e.kind.declares role = true ∧ role.isSequence = false) ∧
    ((e.childSequence role).isOk = true ↔ e.kind.declares role = true ∧ role.isSequence = true) ∧
    (∀ c, (e.withChild role c).isOk = (e.child? role).isOk) ∧
    (∀ defect, e.child? role = .error defect → defect = .noSuchRole e.kind role e.location) ∧
    (∀ defect, e.childSequence role = .error defect →
      defect = .noSuchRole e.kind role e.location) ∧
    (∀ c defect, e.withChild role c = .error defect →
      defect = .noSuchRole e.kind role e.location) ∧
    (∀ c x, e.withChild role c = .ok x →
      x.child? role = .ok (some c) ∧
      (∀ other, other ≠ role → x.child? other = e.child? other) ∧
      (∀ other, x.childSequence other = e.childSequence other) ∧
      x.kind = e.kind ∧ x.label = e.label ∧ x.location = e.location ∧
      (e.child? role = .ok (some c) → x = e) ∧
      ∀ d, x.withChild role d = e.withChild role d) ∧
    e.children = e.kind.roles.flatMap e.childrenIn := by
  refine ⟨?_, ?_, isOk_withChild e role, fun _ => eq_noSuchRole_of_child?,
    fun _ => eq_noSuchRole_of_childSequence, fun _ _ => eq_noSuchRole_of_withChild, ?_,
    children_eq_flatMap e⟩
  · rw [isOk_child?, Bool.and_eq_true, Bool.not_eq_true']
  · rw [isOk_childSequence, Bool.and_eq_true]
  · intro c x hx
    have hlabel := label_of_withChild hx
    have hkind : x.kind = e.kind := by rw [← kind_label, hlabel, kind_label]
    refine ⟨child?_of_withChild hx, fun _ => child?_of_withChild_of_ne hx,
      childSequence_of_withChild hx, hkind, hlabel, location_of_withChild hx, ?_,
      withChild_of_withChild hx⟩
    intro hpresent
    exact Except.ok.inj (hx.symm.trans (withChild_of_child? hpresent))

/-- A missing fallback can be supplied, and is then the fallback. -/
theorem missing_fallback_is_supplied :
    let here : Location := ⟨"m.py", 1⟩
    let e := getattr here (var here "x") (var here "name") none
    let fallback := constant here .none
    ∃ x, e.withChild .default fallback = .ok x ∧ e.child? .default = .ok none ∧
      x.child? .default = .ok (some fallback) ∧ x.child? .source = .ok (some (var here "x")) ∧
      x.label = e.label := by
  intro here e fallback
  obtain ⟨-, -, -, -, -, -, hreplaced, -⟩ := roles_are_lawful e .default
  obtain ⟨hchild, hothers, -, -, hlabel, -⟩ := hreplaced fallback _ rfl
  exact ⟨_, rfl, rfl, hchild, hothers .source (by decide), hlabel⟩

end Expression

end AttributeOptimizer
