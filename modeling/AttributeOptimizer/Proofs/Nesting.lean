import AttributeOptimizer.Format.Tree
import AttributeOptimizer.Proofs.Passes
import Mathlib.Tactic.SplitIfs

set_option autoImplicit false

/-! # How deeply trees are nested

A rule may nest deeper what it keeps: an effect that moves from a field of its node into the list of
a node for effects gets one level deeper, and so does what it is put in front of. But this happens
where a call, or a lookup through the builtin with a fallback, goes away. `Expression.room` counts
these nodes with the level to spare, and an empty tuple with that of the constant it becomes: it
bounds the depth (`depth_toJson_le_room`), and no rule raises it (`room_le_of_rewrites`). Without
such nodes it is no more than the depth (`room_le_depth_toJson`). -/

namespace AttributeOptimizer

/-! ## Depths of documents -/

namespace Json

theorem depthOfItems_le_iff {items : List Json} {n : Nat} :
    depthOfItems items ≤ n ↔ ∀ j ∈ items, j.depth ≤ n := by
  induction items with
  | nil => simp [depthOfItems]
  | cons j rest ih => rw [depthOfItems, Nat.max_le, ih, List.forall_mem_cons]

end Json

namespace Constant

/-- A data attribute is an integer, the float itself or zero. -/
theorem lookupAttribute_cases {c folded : Constant} {name : String}
    (h : c.lookupAttribute name = .ok (some folded)) :
    (∃ i, folded = .int i) ∨ (∃ x, c = .float x ∧ folded = .float x) ∨
      folded = .float Binary64.zero := by
  have hdata : c.dataAttribute? name = some folded := by
    unfold lookupAttribute at h
    split at h
    · exact Except.ok.inj h
    · cases h
  unfold dataAttribute? at hdata
  split at hdata
  · split_ifs at hdata <;> exact Or.inl ⟨_, (Option.some.inj hdata).symm⟩
  · split_ifs at hdata <;> exact Or.inl ⟨_, (Option.some.inj hdata).symm⟩
  · split_ifs at hdata
    · exact Or.inr (Or.inl ⟨_, rfl, (Option.some.inj hdata).symm⟩)
    · exact Or.inr (Or.inr (Option.some.inj hdata).symm)
  · cases hdata

theorem depth_toJson_float (x : Binary64) : (float x).toJson.depth = 1 := by
  rw [toJson]
  split <;> rfl

theorem depth_of_lookupAttribute {c folded : Constant} {name : String}
    (h : c.lookupAttribute name = .ok (some folded)) : folded.toJson.depth = 1 := by
  rcases lookupAttribute_cases h with ⟨i, rfl⟩ | ⟨x, -, rfl⟩ | rfl
  · rfl
  · exact depth_toJson_float x
  · exact depth_toJson_float Binary64.zero

/-- A tuple is nested two levels deeper than its deepest element. -/
theorem depth_tuple_le {values : List Constant} {n : Nat}
    (h : ∀ c ∈ values, c.toJson.depth ≤ n) : (tuple values).toJson.depth ≤ n + 2 := by
  have hitems : Json.depthOfItems (elementsToJson values) ≤ n := by
    rw [elementsToJson_eq_map, Json.depthOfItems_le_iff, List.forall_mem_map]
    exact h
  simp only [toJson, Json.depth, Json.depthOfMembers]
  omega

end Constant

namespace Expression

theorem depth_recordOf (kind : Kind) (location : Location) (fields : List (String × Json)) :
    (recordOf kind location fields).depth = max 1 (Json.depthOfMembers fields) + 1 := by
  simp [recordOf, Json.depth, Json.depthOfMembers, Kind.toJson, Location.toJson]

/-! ## Room -/

mutual

/-- The depth that a tree may get while it is optimized: its own, with a level more for each call,
    each lookup with a fallback and each empty tuple. -/
def room : Expression → Nat
  | .attributeLookup _ source _ => room source + 1
  | .specialLookup _ source _ => room source + 1
  | .getattr _ source selector none => max (room source) (room selector) + 1
  | .getattr _ source selector (some fallback) =>
    max (max (room source) (room selector)) (room fallback) + 2
  | .setattr _ source selector value =>
    max (max (room source) (room selector)) (room value) + 1
  | .hasattr _ source selector => max (room source) (room selector) + 1
  | .constant _ value => max 1 value.toJson.depth + 1
  | .var _ _ => 2
  | .raise _ _ => 2
  | .sideEffects _ effects value => max (roomOfAll effects + 2) (room value + 1)
  | .tuple _ elements => max 1 (roomOfAll elements) + 2
  | .call _ called args kw => max (max (room called) (room args)) (room kw) + 2

/-- The greatest room of some trees. -/
def roomOfAll : List Expression → Nat
  | [] => 0
  | e :: rest => max (room e) (roomOfAll rest)

end

theorem roomOfAll_le_iff {es : List Expression} {n : Nat} :
    roomOfAll es ≤ n ↔ ∀ e ∈ es, e.room ≤ n := by
  induction es with
  | nil => simp [roomOfAll]
  | cons e rest ih => rw [roomOfAll, Nat.max_le, ih, List.forall_mem_cons]

theorem room_le_roomOfAll {es : List Expression} {e : Expression} (h : e ∈ es) :
    e.room ≤ roomOfAll es :=
  roomOfAll_le_iff.1 (Nat.le_refl _) e h

theorem exists_toJson_eq_recordOf (e : Expression) :
    ∃ fields, e.toJson = recordOf e.kind e.location fields := by
  cases e with
  | getattr location source selector fallback => cases fallback <;> exact ⟨_, rfl⟩
  | _ => exact ⟨_, rfl⟩

/-- Every node holds at least its location. -/
theorem two_le_depth_toJson (e : Expression) : 2 ≤ e.toJson.depth := by
  obtain ⟨fields, hfields⟩ := e.exists_toJson_eq_recordOf
  rw [hfields, depth_recordOf]
  omega

theorem depthOfItems_listToJson_le {es : List Expression}
    (h : ∀ e ∈ es, e.toJson.depth ≤ e.room) :
    Json.depthOfItems (listToJson es) ≤ roomOfAll es := by
  rw [listToJson_eq_map, Json.depthOfItems_le_iff, List.forall_mem_map]
  exact fun e he => Nat.le_trans (h e he) (room_le_roomOfAll he)

theorem depth_toJson_le_room (e : Expression) : e.toJson.depth ≤ e.room := by
  induction e using childInduction with
  | node e ih =>
      have hchild : ∀ c ∈ e.children, 2 ≤ c.room ∧ c.toJson.depth ≤ c.room :=
        fun c hc => ⟨Nat.le_trans c.two_le_depth_toJson (ih c hc), ih c hc⟩
      cases e with
      | sideEffects location effects value =>
          have heffects := depthOfItems_listToJson_le fun c hc => ih c (effect_mem_children hc ..)
          have hvalue := hchild value (value_mem_children ..)
          simp only [toJson, depth_recordOf, Json.depthOfMembers, Json.depth, room]
          omega
      | tuple location elements =>
          have helements := depthOfItems_listToJson_le ih
          simp only [toJson, depth_recordOf, Json.depthOfMembers, Json.depth, room, children]
            at helements ⊢
          omega
      | getattr location source selector fallback =>
          cases fallback <;>
            simp only [children, Option.toList, List.forall_mem_cons] at hchild <;>
            simp only [toJson, depth_recordOf, Json.depthOfMembers, Json.depth, room] <;> omega
      | raise location exception =>
          simp [toJson, depth_recordOf, Json.depthOfMembers, Json.depth, room,
            RaisedException.toJson, ExceptionClass.toJson]
      | _ =>
          simp only [children, List.forall_mem_cons] at hchild
          simp only [toJson, depth_recordOf, Json.depthOfMembers, Json.depth, room]
          omega

theorem two_le_room (e : Expression) : 2 ≤ e.room :=
  Nat.le_trans e.two_le_depth_toJson e.depth_toJson_le_room

/-- No child has more room than its node. -/
theorem room_le_of_mem_children {c e : Expression} (h : c ∈ e.children) : c.room ≤ e.room := by
  cases e with
  | sideEffects location effects value =>
      rw [room]
      rcases List.mem_append.1 h with h | h
      · have heffect := room_le_roomOfAll h
        omega
      · rw [List.mem_singleton.1 h]
        omega
  | tuple location elements =>
      have helement := room_le_roomOfAll (show c ∈ elements from h)
      rw [room]
      omega
  | getattr location source selector fallback =>
      cases fallback <;> simp only [children, Option.toList, List.mem_cons] at h <;> grind [room]
  | _ => simp only [children, List.mem_cons] at h; grind [room]

theorem room_le_of_mem_nodes {n e : Expression} (h : n ∈ e.nodes) : n.room ≤ e.room := by
  induction e using childInduction with
  | node e ih =>
      rcases mem_nodes.1 h with rfl | ⟨c, hc, hn⟩
      · exact Nat.le_refl _
      · exact Nat.le_trans (ih c hc hn) (room_le_of_mem_children hc)

/-! ## Rules -/

theorem roomOfAll_append (as bs : List Expression) :
    roomOfAll (as ++ bs) = max (roomOfAll as) (roomOfAll bs) := by
  induction as with
  | nil => simp [roomOfAll]
  | cons a as ih => rw [List.cons_append, roomOfAll, roomOfAll, ih, Nat.max_assoc]

/-- Putting effects in front of a node takes a level for the node and two for the effects. -/
theorem room_after_le {node : Expression} {dropped : List Expression} {n : Nat}
    (hnode : node.room + 1 ≤ n) (hdropped : ∀ e ∈ dropped, e.room + 2 ≤ n) (location : Location) :
    (node.after dropped location).room ≤ n := by
  have heffects : roomOfAll (allEffects dropped) ≤ n - 2 := by
    rw [roomOfAll_le_iff]
    intro x hx
    obtain ⟨e, he, hx⟩ := mem_allEffects.1 hx
    have heffect := room_le_of_mem_nodes (mem_nodes_of_mem_effects hx)
    have hroom := hdropped e he
    omega
  have hsome := node.two_le_room
  rcases after_cases node dropped location with
    ⟨-, hafter⟩ | ⟨place, inner, value, -, rfl, hafter⟩ | ⟨-, hafter⟩
  · rw [hafter]
    omega
  · rw [room] at hnode
    rw [hafter, room, roomOfAll_append]
    omega
  · rw [hafter, room]
    omega

/-- Every operand of a call has two levels around it. -/
theorem room_operand_le {c called args kw : Expression} (location : Location)
    (h : c ∈ [called, args, kw]) : c.room + 2 ≤ (call location called args kw).room := by
  rw [room]
  simp only [List.mem_cons, List.not_mem_nil, or_false] at h
  rcases h with rfl | rfl | rfl <;> omega

/-- A raising member takes the place of its sequence, with two levels around every member. -/
theorem room_after_of_append {before rest : List Expression} {raising : Expression} {n : Nat}
    (h : roomOfAll (before ++ raising :: rest) + 2 ≤ n) (location : Location) :
    (raising.after before location).room ≤ n := by
  rw [roomOfAll_append, roomOfAll] at h
  refine room_after_le (by omega) (fun e he => ?_) location
  have hmember := room_le_roomOfAll he
  omega

/-- A tuple of constants has as much room as the constant that it becomes. -/
theorem room_constant_tuple_le {elements : List Expression} {values : List Constant}
    (h : elements.map constant? = values.map some) (location place : Location) :
    (constant place (.tuple values)).room ≤ (tuple location elements).room := by
  have hvalues : ∀ c ∈ values, c.toJson.depth ≤ max 1 (roomOfAll elements) - 1 := by
    intro c hc
    obtain ⟨e, he, hconstant⟩ := List.mem_map.1 (h ▸ List.mem_map_of_mem hc)
    have helement := room_le_roomOfAll he
    cases e with
    | constant place value =>
        obtain rfl := Option.some.inj hconstant
        rw [room] at helement
        omega
    | _ => cases hconstant
  have hdepth := Constant.depth_tuple_le hvalues
  rw [room, room]
  omega

theorem room_le_of_rewrites {node replacement : Expression} {tag : ChangeTag}
    {description : String} (h : Rewrites node replacement tag description) :
    replacement.room ≤ node.room := by
  cases h with
  | lookupRaises _ => exact room_le_of_mem_children (by simp [children])
  | lookupFolds hfolds =>
      simp only [room, Constant.depth_of_lookupAttribute hfolds]
      omega
  | lookupFails _ =>
      simp only [room]
      omega
  | specialLookupRaises _ => exact room_le_of_mem_children (by simp [children])
  | @getattr location place source name fallback _ =>
      cases fallback with
      | none =>
          rw [after_eq_self (by simp), room, room]
          omega
      | some fallback =>
          refine room_after_le ?_ (List.forall_mem_singleton.2 ?_) location
          · simp only [room]
            omega
          · rw [room]
            omega
  | @hasattr location place place' value name =>
      have hsource := two_le_room (constant place value)
      have hbool : (constant location (.bool (value.hasAttribute name))).room = 2 := rfl
      rw [hbool, room]
      omega
  | calledRaises _ => exact room_le_of_mem_children (by simp [children])
  | @argsRaise location called args kw _ _ =>
      have hargs := room_operand_le location (show args ∈ [called, args, kw] by simp)
      exact room_after_le (by omega)
        (List.forall_mem_singleton.2 (room_operand_le location (by simp))) location
  | @kwRaises location called args kw _ _ _ =>
      have hkw := room_operand_le location (show kw ∈ [called, args, kw] by simp)
      exact room_after_le (by omega) (List.forall_mem_cons.2 ⟨room_operand_le location (by simp),
        List.forall_mem_singleton.2 (room_operand_le location (by simp))⟩) location
  | @constantCalled location place value args kw _ _ =>
      have hargs := room_operand_le location (show args ∈ [constant place value, args, kw] by simp)
      have hsome := args.two_le_room
      refine room_after_le ?_ (List.forall_mem_cons.2 ⟨hargs,
        List.forall_mem_singleton.2 (room_operand_le location (by simp))⟩) location
      rw [room]
      omega
  | @effectRaises location before rest raising value _ _ =>
      have hmembers : roomOfAll (before ++ raising :: rest) + 2 ≤
          (sideEffects location (before ++ raising :: rest) value).room := by
        rw [room]
        omega
      exact room_after_of_append hmembers location
  | effectsRemoved _ => exact room_le_of_mem_children (value_mem_children ..)
  | @effectsFiltered location effects value _ _ _ =>
      have hkept : roomOfAll (effects.filter mayHaveEffects) ≤ roomOfAll effects :=
        roomOfAll_le_iff.2 fun e he => room_le_roomOfAll (List.mem_of_mem_filter he)
      rw [room, room]
      omega
  | @elementRaises location before rest raising _ _ =>
      have hmembers : roomOfAll (before ++ raising :: rest) + 2 ≤
          (tuple location (before ++ raising :: rest)).room := by
        rw [room]
        omega
      exact room_after_of_append hmembers location
  | tupleFolds hvalues => exact room_constant_tuple_le hvalues _ _

/-! ## Passes and runs -/

theorem room_overChildren_le {e : Expression} {f : Expression → Expression}
    (h : ∀ c ∈ e.children, (f c).room ≤ c.room) : (e.overChildren f).room ≤ e.room := by
  have hall : ∀ es : List Expression, (∀ c ∈ es, (f c).room ≤ c.room) →
      roomOfAll (es.map f) ≤ roomOfAll es := by
    intro es hes
    rw [roomOfAll_le_iff, List.forall_mem_map]
    exact fun c hc => Nat.le_trans (hes c hc) (room_le_roomOfAll hc)
  cases e with
  | sideEffects location effects value =>
      have heffects := hall effects fun c hc => h c (effect_mem_children hc ..)
      have hvalue := h value (value_mem_children ..)
      rw [overChildren_sideEffects, room, room]
      omega
  | tuple location elements =>
      have helements := hall elements h
      rw [overChildren_tuple, room, room]
      omega
  | getattr location source selector fallback =>
      cases fallback <;>
        simp only [children, Option.toList, List.forall_mem_cons] at h <;>
        simp only [overChildren_getattr, Option.map, room] <;> omega
  | constant location value => exact Nat.le_refl _
  | var location name => exact Nat.le_refl _
  | raise location exception => exact Nat.le_refl _
  | _ =>
      simp only [children, List.forall_mem_cons] at h
      simp only [overChildren_attributeLookup, overChildren_specialLookup, overChildren_setattr,
        overChildren_hasattr, overChildren_call, room]
      omega

theorem room_afterPass_le (e : Expression) : e.afterPass.room ≤ e.room := by
  induction e using childInduction with
  | node e ih =>
      have hchildren := room_overChildren_le ih
      rw [afterPass_eq]
      rcases afterAttempt_cases (e.overChildren afterPass) with ⟨hsame, -⟩ | ⟨_, _, hrewrites⟩
      · rwa [hsame]
      · exact Nat.le_trans (room_le_of_rewrites hrewrites) hchildren

/-- The optimized tree is nested no deeper than the tree has room. -/
theorem depth_outcome_le (settings : Settings) (tree : Expression) :
    (tree.outcome settings).tree.toJson.depth ≤ tree.room := by
  have hroom : (tree.outcome settings).tree.room ≤ tree.room :=
    tree_outcomeFrom (fun e he => Nat.le_trans e.room_afterPass_le he) (Nat.le_refl tree.room) _ _ _
  exact Nat.le_trans (depth_toJson_le_room _) hroom

/-! ## Trees without room to spare -/

/-- What a rule does to the node may nest a part of it deeper. -/
def MayNestDeeper : Expression → Prop
  | .getattr _ _ _ (some _) | .call .. | .tuple _ [] => True
  | _ => False

theorem roomOfAll_le_depthOfItems {es : List Expression}
    (h : ∀ e ∈ es, e.room ≤ e.toJson.depth) :
    roomOfAll es ≤ Json.depthOfItems (listToJson es) := by
  have hitems := Json.depthOfItems_le_iff.1 (Nat.le_refl (Json.depthOfItems (listToJson es)))
  rw [listToJson_eq_map, List.forall_mem_map] at hitems
  rw [roomOfAll_le_iff, listToJson_eq_map]
  exact fun e he => Nat.le_trans (h e he) (hitems e he)

/-- Where no node may be nested deeper, the depth is all the room that there is. -/
theorem room_le_depth_toJson {e : Expression} (h : ∀ n ∈ e.nodes, ¬n.MayNestDeeper) :
    e.room ≤ e.toJson.depth := by
  induction e using childInduction with
  | node e ih =>
      obtain ⟨hroot, hbelow⟩ := forall_mem_nodes.1 h
      have hchild : ∀ c ∈ e.children, c.room ≤ c.toJson.depth := fun c hc => ih c hc (hbelow c hc)
      cases e with
      | sideEffects location effects value =>
          have heffects := roomOfAll_le_depthOfItems fun c hc =>
            hchild c (effect_mem_children hc ..)
          have hvalue := hchild value (value_mem_children ..)
          simp only [toJson, depth_recordOf, Json.depthOfMembers, Json.depth, room]
          omega
      | tuple location elements =>
          have helements := roomOfAll_le_depthOfItems hchild
          cases elements with
          | nil => exact absurd trivial hroot
          | cons first rest =>
              have hfirst := two_le_room first
              simp only [toJson, depth_recordOf, Json.depthOfMembers, Json.depth, room, roomOfAll,
                children] at helements ⊢
              omega
      | getattr location source selector fallback =>
          cases fallback with
          | none =>
              simp only [children, Option.toList, List.forall_mem_cons] at hchild
              simp only [toJson, depth_recordOf, Json.depthOfMembers, Json.depth, room]
              omega
          | some fallback => exact absurd trivial hroot
      | call location called args kw => exact absurd trivial hroot
      | _ =>
          simp only [children, List.forall_mem_cons] at hchild
          simp only [toJson, depth_recordOf, Json.depthOfMembers, Json.depth, room]
          omega

/-- Trees of other nodes are never nested deeper. -/
theorem depth_outcome_le_depth (settings : Settings) {tree : Expression}
    (h : ∀ n ∈ tree.nodes, ¬n.MayNestDeeper) :
    (tree.outcome settings).tree.toJson.depth ≤ tree.toJson.depth :=
  Nat.le_trans (depth_outcome_le settings tree) (room_le_depth_toJson h)

end Expression

end AttributeOptimizer
