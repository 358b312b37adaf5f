import AttributeOptimizer.Expression.Children
import Mathlib.Data.List.Basic

set_option autoImplicit false

/-! # Trees as nodes over children

What holds of every kind of node is proved once, over `Expression.children`: `childInduction` is the
induction that the whole theory uses, `Expression.nodes` lists the nodes of a tree, and
`Expression.overChildren` rebuilds a node over changed children. A bottom-up walk is the visit of a
node after the walks of its children (`bottomUp_eq`), whatever the kind of the node. -/

namespace AttributeOptimizer

namespace Expression

/-! ## Induction -/

theorem effect_mem_children {effects : List Expression} {e : Expression} (h : e ∈ effects)
    (location : Location) (value : Expression) :
    e ∈ (sideEffects location effects value).children :=
  List.mem_append_left [value] h

theorem value_mem_children (location : Location) (effects : List Expression) (value : Expression) :
    value ∈ (sideEffects location effects value).children :=
  List.mem_append_right effects (List.mem_singleton.2 rfl)

theorem sizeOf_lt_of_mem_children {e c : Expression} (h : c ∈ e.children) :
    sizeOf c < sizeOf e := by
  cases e with
  | getattr location source selector fallback =>
      cases fallback <;> simp [children] at h <;> grind
  | sideEffects location effects value =>
      rcases List.mem_append.1 h with h | h
      · have := List.sizeOf_lt_of_mem h
        simp only [sideEffects.sizeOf_spec]
        omega
      · obtain rfl := List.mem_singleton.1 h
        simp only [sideEffects.sizeOf_spec]
        omega
  | tuple location elements =>
      have := List.sizeOf_lt_of_mem (show c ∈ elements from h)
      simp only [tuple.sizeOf_spec]
      omega
  | _ => simp [children] at h <;> grind

/-- What passes from the children of a node to the node holds of every tree. -/
@[elab_as_elim]
theorem childInduction {motive : Expression → Prop}
    (node : ∀ e, (∀ c ∈ e.children, motive c) → motive e) (e : Expression) : motive e :=
  node e fun c _ => childInduction node c
termination_by sizeOf e
decreasing_by exact sizeOf_lt_of_mem_children ‹_›

/-! ## The nodes of a tree -/

/-- All nodes of a tree, each before the nodes below it. -/
def nodes (e : Expression) : List Expression :=
  e :: e.children.attach.flatMap fun c => nodes c.1
termination_by e
decreasing_by exact sizeOf_lt_of_mem_children c.2

theorem nodes_eq (e : Expression) : e.nodes = e :: e.children.flatMap nodes := by
  rw [nodes, List.flatMap_subtype fun _ _ => rfl, List.unattach_attach]

theorem mem_nodes {n e : Expression} : n ∈ e.nodes ↔ n = e ∨ ∃ c ∈ e.children, n ∈ c.nodes := by
  rw [nodes_eq, List.mem_cons, List.mem_flatMap]

theorem self_mem_nodes (e : Expression) : e ∈ e.nodes :=
  mem_nodes.2 (Or.inl rfl)

/-- What holds of all nodes of a tree holds of the root, and of all nodes of the children. -/
theorem forall_mem_nodes {p : Expression → Prop} {e : Expression} :
    (∀ n ∈ e.nodes, p n) ↔ p e ∧ ∀ c ∈ e.children, ∀ n ∈ c.nodes, p n := by
  rw [nodes_eq, List.forall_mem_cons]
  refine and_congr_right fun _ => ?_
  simp only [List.mem_flatMap]
  exact ⟨fun h c hc n hn => h n ⟨c, hc, hn⟩, fun h n ⟨c, hc, hn⟩ => h c hc n hn⟩

theorem mem_nodes_trans {n d e : Expression} (hn : n ∈ d.nodes) (hd : d ∈ e.nodes) :
    n ∈ e.nodes := by
  induction e using childInduction with
  | node e ih =>
      rcases mem_nodes.1 hd with rfl | ⟨c, hc, hd⟩
      · exact hn
      · exact mem_nodes.2 (Or.inr ⟨c, hc, ih c hc hd⟩)

/-! ## Rebuilding -/

/-- The node with a function applied to each of its children. -/
def overChildren (f : Expression → Expression) (e : Expression) : Expression :=
  e.withChildren (e.children.map f)

section OverChildren

variable (f : Expression → Expression) (location : Location)

@[simp] theorem overChildren_attributeLookup (source : Expression) (name : String) :
    (attributeLookup location source name).overChildren f =
      attributeLookup location (f source) name := rfl

@[simp] theorem overChildren_specialLookup (source : Expression) (name : String) :
    (specialLookup location source name).overChildren f =
      specialLookup location (f source) name := rfl

@[simp] theorem overChildren_getattr (source selector : Expression)
    (fallback : Option Expression) :
    (getattr location source selector fallback).overChildren f =
      getattr location (f source) (f selector) (fallback.map f) := by
  cases fallback <;> rfl

@[simp] theorem overChildren_setattr (source selector value : Expression) :
    (setattr location source selector value).overChildren f =
      setattr location (f source) (f selector) (f value) := rfl

@[simp] theorem overChildren_hasattr (source selector : Expression) :
    (hasattr location source selector).overChildren f =
      hasattr location (f source) (f selector) := rfl

@[simp] theorem overChildren_constant (value : Constant) :
    (constant location value).overChildren f = constant location value := rfl

@[simp] theorem overChildren_var (name : String) :
    (var location name).overChildren f = var location name := rfl

@[simp] theorem overChildren_raise (exception : RaisedException) :
    (raise location exception).overChildren f = raise location exception := rfl

@[simp] theorem overChildren_sideEffects (effects : List Expression) (value : Expression) :
    (sideEffects location effects value).overChildren f =
      sideEffects location (effects.map f) (f value) := by
  simp [overChildren, children, withChildren]

@[simp] theorem overChildren_tuple (elements : List Expression) :
    (tuple location elements).overChildren f = tuple location (elements.map f) := rfl

@[simp] theorem overChildren_call (called args kw : Expression) :
    (call location called args kw).overChildren f =
      call location (f called) (f args) (f kw) := rfl

end OverChildren

@[simp] theorem kind_overChildren (f : Expression → Expression) (e : Expression) :
    (e.overChildren f).kind = e.kind := by
  cases e <;> simp [kind]

@[simp] theorem location_overChildren (f : Expression → Expression) (e : Expression) :
    (e.overChildren f).location = e.location := by
  cases e <;> simp [location]

@[simp] theorem children_overChildren (f : Expression → Expression) (e : Expression) :
    (e.overChildren f).children = e.children.map f := by
  cases e with
  | getattr location source selector fallback => cases fallback <;> rfl
  | sideEffects location effects value => simp [children]
  | _ => rfl

theorem forall_mem_children_overChildren {p : Expression → Prop} {f : Expression → Expression}
    {e : Expression} : (∀ c ∈ (e.overChildren f).children, p c) ↔ ∀ c ∈ e.children, p (f c) := by
  rw [children_overChildren, List.forall_mem_map]

/-- A node whose children all stay is the node itself. -/
theorem overChildren_eq_self {f : Expression → Expression} {e : Expression}
    (h : ∀ c ∈ e.children, f c = c) : e.overChildren f = e := by
  cases e with
  | getattr location source selector fallback =>
      cases fallback <;> simp_all [children]
  | sideEffects location effects value =>
      have hmap : effects.map f = effects :=
        (List.map_congr_left fun c hc => h c (effect_mem_children hc ..)).trans (List.map_id _)
      simp [hmap, h value (value_mem_children ..)]
  | tuple location elements =>
      have hmap : elements.map f = elements :=
        (List.map_congr_left h).trans (List.map_id _)
      simp [hmap]
  | _ => simp_all [children]

/-! ## Other children -/

theorem withChildren_sideEffects (location : Location) {effects others : List Expression}
    (h : others.length = effects.length) (value other : Expression) :
    (sideEffects location effects value).withChildren (others ++ [other]) =
      sideEffects location others other := by
  simp only [withChildren, List.splitAt_eq, ← h, List.take_left, List.drop_left]

/-- A list that fits a node that evaluates effects first is as many effects and a value. -/
theorem exists_append_of_length_eq {others effects : List Expression} {value : Expression}
    (h : others.length = (effects ++ [value]).length) :
    ∃ front last, others = front ++ [last] ∧ front.length = effects.length := by
  rcases List.eq_nil_or_concat others with rfl | ⟨front, last, rfl⟩
  · simp at h
  · exact ⟨front, last, by simp, by simpa using h⟩

theorem children_withChildren {e : Expression} {others : List Expression}
    (h : others.length = e.children.length) : (e.withChildren others).children = others := by
  cases e with
  | getattr location source selector fallback =>
      cases fallback with
      | none => match others, h with | [_, _], _ => rfl
      | some fallback => match others, h with | [_, _, _], _ => rfl
  | sideEffects location effects value =>
      obtain ⟨front, last, rfl, hfront⟩ := exists_append_of_length_eq h
      rw [withChildren_sideEffects location hfront]
      rfl
  | attributeLookup => match others, h with | [_], _ => rfl
  | specialLookup => match others, h with | [_], _ => rfl
  | setattr => match others, h with | [_, _, _], _ => rfl
  | hasattr => match others, h with | [_, _], _ => rfl
  | call => match others, h with | [_, _, _], _ => rfl
  | tuple => rfl
  | _ => exact (List.length_eq_zero_iff.1 h).symm

@[simp] theorem kind_withChildren (e : Expression) (others : List Expression) :
    (e.withChildren others).kind = e.kind := by
  unfold withChildren
  split <;> try rfl
  split <;> rfl

/-- Of children that are replaced again nothing is left. -/
theorem withChildren_withChildren {e : Expression} {others more : List Expression}
    (hothers : others.length = e.children.length) (hmore : more.length = e.children.length) :
    (e.withChildren others).withChildren more = e.withChildren more := by
  cases e with
  | getattr location source selector fallback =>
      cases fallback with
      | none => match others, hothers, more, hmore with | [_, _], _, [_, _], _ => rfl
      | some fallback =>
          match others, hothers, more, hmore with | [_, _, _], _, [_, _, _], _ => rfl
  | sideEffects location effects value =>
      obtain ⟨front, last, rfl, hfront⟩ := exists_append_of_length_eq hothers
      obtain ⟨front', last', rfl, hfront'⟩ := exists_append_of_length_eq hmore
      rw [withChildren_sideEffects location hfront, withChildren_sideEffects location hfront',
        withChildren_sideEffects location (hfront'.trans hfront.symm)]
  | attributeLookup => match others, hothers, more, hmore with | [_], _, [_], _ => rfl
  | specialLookup => match others, hothers, more, hmore with | [_], _, [_], _ => rfl
  | setattr => match others, hothers, more, hmore with | [_, _, _], _, [_, _, _], _ => rfl
  | hasattr => match others, hothers, more, hmore with | [_, _], _, [_, _], _ => rfl
  | call => match others, hothers, more, hmore with | [_, _, _], _, [_, _, _], _ => rfl
  | _ => rfl

theorem withChildren_children (e : Expression) : e.withChildren e.children = e := by
  have hid := overChildren_eq_self (f := id) (e := e) fun _ _ => rfl
  rwa [overChildren, List.map_id] at hid

theorem children_relocate (place : Location) (e : Expression) :
    (e.relocate place).children = e.children.map (relocate place) := by
  cases e with
  | getattr location source selector fallback => cases fallback <;> simp [relocate, children]
  | _ => simp [relocate, children, relocateAll_eq_map]

/-! ## Bottom-up walks -/

/-- The walk of a tree visits the node after the walks of its children, in order. -/
theorem bottomUp_eq {m : Type → Type} [Monad m] [LawfulMonad m] (visit : Expression → m Revision)
    (e : Expression) :
    bottomUp visit e = (do settle visit e (← e.children.mapM (bottomUp visit))) := by
  cases e with
  | getattr location source selector fallback =>
      cases fallback <;> simp [bottomUp, children]
  | _ => simp [bottomUp, children, bottomUpAll_eq_mapM]

/-- Where the revision of a child is what the child becomes, the revised node is the node over what
    its children become. -/
theorem node_revise (r : Expression → Revision) (e : Expression) :
    (e.revise (e.children.map r)).node e = e.overChildren fun c => (r c).node c := by
  unfold revise
  split
  · next hkept =>
      refine (overChildren_eq_self fun c hc => ?_).symm
      have hc' : (r c).isKept = true := List.all_eq_true.1 hkept _ (List.mem_map_of_mem hc)
      cases hr : r c with
      | kept => rfl
      | replaced node => simp [hr, Revision.isKept] at hc'
  · have hzip : e.children.zipWith (fun c r => r.node c) (e.children.map r) =
        e.children.map fun c => (r c).node c := by
      rw [List.zipWith_map_right, List.zipWith_self]
    rw [hzip]
    rfl

end Expression

end AttributeOptimizer
