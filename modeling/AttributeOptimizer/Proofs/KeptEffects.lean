import AttributeOptimizer.Effects
import AttributeOptimizer.Proofs.Trees
import Mathlib.Data.List.Flatten

set_option autoImplicit false

/-! # What dropped operands leave behind

`Expression.effects` lists the nodes of a tree that do something of their own and stand below no
other such node (`effects_eq`), in the order of the tree; the list is empty exactly for the
expressions without effects. `Expression.after` puts the effects of all the dropped expressions, in
order, in front of the node (`after_cases`): its filter never loses one. -/

namespace AttributeOptimizer

/-- Whether the nodes of this kind do something of their own: lookups, builtins and calls do, and
    raising is an effect as well. The other nodes hold a value, or hand on what their children
    do. -/
def Kind.acts : Kind → Bool
  | attributeLookup | specialLookup | getattr | setattr | hasattr | raise | call => true
  | constant | var | sideEffects | tuple => false

namespace Expression

/-! ## Raising -/

@[simp] theorem raises_sideEffects (location : Location) (effects : List Expression)
    (value : Expression) :
    (sideEffects location effects value).raises = (effects.any raises || value.raises) := by
  simp only [raises, alwaysRaises, anyAlwaysRaises_eq_any]

/-- Only raising nodes and nodes that evaluate effects first are known to raise. -/
theorem raises_cases {e : Expression} (h : e.raises = true) :
    (∃ location exception, e = .raise location exception) ∨
      ∃ location effects value, e = .sideEffects location effects value := by
  cases e with
  | raise location exception => exact Or.inl ⟨_, _, rfl⟩
  | sideEffects location effects value => exact Or.inr ⟨_, _, _, rfl⟩
  | _ => simp [raises, alwaysRaises] at h

/-! ## Having effects -/

/-- The effects are the nodes nearest to the root that do something of their own: what stands below
    such a node happens when it is evaluated. -/
theorem effects_eq (e : Expression) :
    e.effects = if e.kind.acts then [e] else e.children.flatMap effects := by
  cases e with
  | tuple location elements => exact allEffects_eq_flatMap elements
  | sideEffects location before value =>
      rw [effects, allEffects_eq_flatMap]
      simp [kind, Kind.acts, children]
  | _ => rfl

theorem mayHaveEffects_eq (e : Expression) :
    e.mayHaveEffects = (e.kind.acts || e.children.any mayHaveEffects) := by
  cases e with
  | tuple location elements => exact anyMayHaveEffects_eq_any elements
  | sideEffects location before value =>
      rw [mayHaveEffects, anyMayHaveEffects_eq_any]
      simp [kind, Kind.acts, children]
  | _ => rfl

/-- Without effects are the nodes that do nothing of their own and of which no child has an
    effect. -/
theorem effects_eq_nil_iff_children {e : Expression} :
    e.effects = [] ↔ e.kind.acts = false ∧ ∀ c ∈ e.children, c.effects = [] := by
  rw [effects_eq]
  cases e.kind.acts <;> simp

theorem effects_eq_nil_iff {e : Expression} : e.effects = [] ↔ e.mayHaveEffects = false := by
  induction e using childInduction with
  | node e ih =>
      rw [effects_eq_nil_iff_children, mayHaveEffects_eq, Bool.or_eq_false_iff, List.any_eq_false,
        forall₂_congr ih]
      simp only [Bool.not_eq_true]

theorem allEffects_eq_nil_iff {es : List Expression} :
    allEffects es = [] ↔ ∀ e ∈ es, e.mayHaveEffects = false := by
  rw [allEffects_eq_flatMap, List.flatMap_eq_nil_iff]
  exact forall₂_congr fun _ _ => effects_eq_nil_iff

theorem mayHaveEffects_of_raises {e : Expression} (h : e.raises = true) :
    e.mayHaveEffects = true := by
  induction e using childInduction with
  | node e ih =>
      rcases raises_cases h with ⟨location, exception, rfl⟩ | ⟨location, before, value, rfl⟩
      · rfl
      · rw [raises_sideEffects, Bool.or_eq_true, List.any_eq_true] at h
        rw [mayHaveEffects, anyMayHaveEffects_eq_any, Bool.or_eq_true, List.any_eq_true]
        rcases h with ⟨c, hc, hraises⟩ | hraises
        · exact Or.inl ⟨c, hc, ih c (effect_mem_children hc ..) hraises⟩
        · exact Or.inr (ih value (value_mem_children ..) hraises)

theorem raises_eq_false {e : Expression} (h : e.mayHaveEffects = false) : e.raises = false := by
  rw [← Bool.not_eq_true]
  intro hraises
  rw [mayHaveEffects_of_raises hraises] at h
  cases h

/-! ## The members of the effects -/

theorem mem_allEffects {x : Expression} {es : List Expression} :
    x ∈ allEffects es ↔ ∃ e ∈ es, x ∈ e.effects := by
  rw [allEffects_eq_flatMap, List.mem_flatMap]

/-- An effect of an expression is the expression itself, or comes from one of its children. -/
theorem effects_cases {x e : Expression} (h : x ∈ e.effects) :
    x = e ∧ e.kind.acts = true ∨ ∃ c ∈ e.children, x ∈ c.effects := by
  rw [effects_eq] at h
  split at h
  · next hacts => exact Or.inl ⟨List.mem_singleton.1 h, hacts⟩
  · exact Or.inr (List.mem_flatMap.1 h)

theorem acts_of_mem_effects {x e : Expression} (h : x ∈ e.effects) : x.kind.acts = true := by
  induction e using childInduction with
  | node e ih =>
      rcases effects_cases h with ⟨rfl, hacts⟩ | ⟨c, hc, hx⟩
      · exact hacts
      · exact ih c hc hx

theorem effects_of_mem_effects {x e : Expression} (h : x ∈ e.effects) : x.effects = [x] := by
  rw [effects_eq, if_pos (acts_of_mem_effects h)]

theorem mayHaveEffects_of_mem_effects {x e : Expression} (h : x ∈ e.effects) :
    x.mayHaveEffects = true := by
  rw [← Bool.not_eq_false, ← effects_eq_nil_iff, effects_of_mem_effects h]
  exact List.cons_ne_nil x []

/-- The effects stand in the order of the nodes, each as often as it occurs. -/
theorem effects_sublist_nodes (e : Expression) : e.effects.Sublist e.nodes := by
  induction e using childInduction with
  | node e ih =>
      rw [effects_eq, nodes_eq]
      split
      · exact List.singleton_sublist.2 List.mem_cons_self
      · exact (List.Sublist.flatMap_right e.children ih).cons e

theorem mem_nodes_of_mem_effects {x e : Expression} (h : x ∈ e.effects) : x ∈ e.nodes :=
  (effects_sublist_nodes e).subset h

/-! ## Putting effects in front of a node -/

@[simp] theorem allEffects_append (as bs : List Expression) :
    allEffects (as ++ bs) = allEffects as ++ allEffects bs := by
  simp only [allEffects_eq_flatMap, List.flatMap_append]

/-- Effects have no effects but themselves. -/
@[simp] theorem allEffects_effects (e : Expression) : allEffects e.effects = e.effects := by
  have hself : ∀ x ∈ e.effects, x.effects = [x] := fun _ hx => effects_of_mem_effects hx
  rw [allEffects_eq_flatMap, List.flatMap_congr hself, List.flatMap_singleton']

@[simp] theorem allEffects_allEffects (es : List Expression) :
    allEffects (allEffects es) = allEffects es := by
  induction es with
  | nil => rfl
  | cons e rest ih => rw [allEffects, allEffects_append, allEffects_effects, ih]

/-- The expressions that the filter removes have no effects to lose. -/
theorem flatMap_effects_filter (dropped : List Expression) :
    (dropped.filter mayHaveEffects).flatMap effects = allEffects dropped := by
  induction dropped with
  | nil => rfl
  | cons e rest ih =>
      rw [allEffects, ← ih, List.filter_cons]
      cases h : e.mayHaveEffects with
      | true => simp
      | false => simp [effects_eq_nil_iff.2 h]

/-- Only the effects of what is dropped matter. -/
theorem after_congr {dropped dropped' : List Expression}
    (h : allEffects dropped = allEffects dropped') (node : Expression) (location : Location) :
    node.after dropped location = node.after dropped' location := by
  simp only [after, flatMap_effects_filter, h]

/-- The three ways in which effects come in front of a node: there are none, they join the effects
    that the node evaluates first, or a new node evaluates them. -/
theorem after_cases (node : Expression) (dropped : List Expression) (location : Location) :
    allEffects dropped = [] ∧ node.after dropped location = node ∨
    (∃ place inner value, allEffects dropped ≠ [] ∧ node = .sideEffects place inner value ∧
      node.after dropped location =
        .sideEffects location (allEffects dropped ++ inner) value) ∨
    (allEffects dropped ≠ [] ∧
      node.after dropped location = .sideEffects location (allEffects dropped) node) := by
  rw [after, flatMap_effects_filter]
  cases allEffects dropped with
  | nil => exact Or.inl ⟨rfl, rfl⟩
  | cons first rest =>
      cases node with
      | sideEffects place inner value =>
          exact Or.inr (Or.inl ⟨_, _, _, List.cons_ne_nil _ _, rfl, rfl⟩)
      | _ => exact Or.inr (Or.inr ⟨List.cons_ne_nil _ _, rfl⟩)

/-- Effects in front of a node that raises, which may be anywhere in its own effects, leave it
    raising. -/
theorem raises_after {node : Expression} (h : node.raises = true) (dropped : List Expression)
    (location : Location) : (node.after dropped location).raises = true := by
  rcases after_cases node dropped location with
    ⟨-, hafter⟩ | ⟨place, inner, value, -, rfl, hafter⟩ | ⟨-, hafter⟩
  · rwa [hafter]
  · rw [raises_sideEffects] at h
    rw [hafter, raises_sideEffects, List.any_append, Bool.or_assoc, h, Bool.or_true]
  · rw [hafter, raises_sideEffects, h, Bool.or_true]

/-- The nodes of a node after dropped expressions are its own and theirs, and the one that evaluates
    their effects, at the given location. -/
theorem mem_nodes_after {n node : Expression} {dropped : List Expression} {place : Location}
    (h : n ∈ (node.after dropped place).nodes) :
    (n.kind = .sideEffects ∧ n.location = place) ∨ n ∈ node.nodes ∨
      ∃ e ∈ dropped, n ∈ e.nodes := by
  have hdropped : ∀ c ∈ allEffects dropped, n ∈ c.nodes → ∃ e ∈ dropped, n ∈ e.nodes := by
    intro c hc hn
    obtain ⟨e, he, hc⟩ := mem_allEffects.1 hc
    exact ⟨e, he, mem_nodes_trans hn (mem_nodes_of_mem_effects hc)⟩
  rcases after_cases node dropped place with
    ⟨-, hafter⟩ | ⟨_, inner, value, -, rfl, hafter⟩ | ⟨-, hafter⟩
  · rw [hafter] at h
    exact Or.inr (Or.inl h)
  · rw [hafter, mem_nodes] at h
    rcases h with rfl | ⟨c, hc, hn⟩
    · exact Or.inl ⟨rfl, rfl⟩
    · rw [children, List.append_assoc, List.mem_append] at hc
      rcases hc with hc | hc
      · exact Or.inr (Or.inr (hdropped c hc hn))
      · exact Or.inr (Or.inl (mem_nodes.2 (Or.inr ⟨c, hc, hn⟩)))
  · rw [hafter, mem_nodes] at h
    rcases h with rfl | ⟨c, hc, hn⟩
    · exact Or.inl ⟨rfl, rfl⟩
    · rcases List.mem_append.1 hc with hc | hc
      · exact Or.inr (Or.inr (hdropped c hc hn))
      · exact Or.inr (Or.inl (List.mem_singleton.1 hc ▸ hn))

theorem forall_mem_nodes_after {p : Expression → Prop} {node : Expression}
    {dropped : List Expression} {place : Location}
    (hmade : ∀ n, n.kind = .sideEffects → n.location = place → p n)
    (hnode : ∀ n ∈ node.nodes, p n) (hdropped : ∀ e ∈ dropped, ∀ n ∈ e.nodes, p n) :
    ∀ n ∈ (node.after dropped place).nodes, p n := by
  intro n hn
  rcases mem_nodes_after hn with ⟨hkind, hplace⟩ | hn | ⟨e, he, hn⟩
  · exact hmade n hkind hplace
  · exact hnode n hn
  · exact hdropped e he n hn

end Expression

end AttributeOptimizer
