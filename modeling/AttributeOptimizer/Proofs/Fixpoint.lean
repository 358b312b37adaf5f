import AttributeOptimizer.Proofs.NormalForm
import Mathlib.Data.List.MinMax
import Mathlib.Order.Nat

set_option autoImplicit false

/-! # How many passes a tree needs

Every rule but one makes a normal tree out of normal children. The exception is the lookup through
the builtin: the plain lookup that takes its place may fold, and the effects of its fallback join a
list before they are themselves normal. `SettlesIn n e` bounds the passes that a tree still needs by
its shape: a node needs as many as its children, at least one, and one more if it is such a lookup.
A pass takes one from the bound (`SettlesIn.afterPass`), and at first it is one more than
`Expression.getattrDepth` (`settlesIn_getattrDepth`). -/

namespace AttributeOptimizer

open Expression

/-- The tree is normal after at most the given number of passes, for reasons of shape: normal parts
    need none, and a lookup through the builtin needs one more than its operands. -/
inductive SettlesIn : Nat → Expression → Prop where
  | normal {n : Nat} {e : Expression} : e.Normal → SettlesIn n e
  | node {n : Nat} {e : Expression} :
      e.kind ≠ .getattr → (∀ c ∈ e.children, SettlesIn (n + 1) c) → SettlesIn (n + 1) e
  | getattr {n : Nat} {e : Expression} :
      e.kind = .getattr → (∀ c ∈ e.children, SettlesIn (n + 1) c) → SettlesIn (n + 2) e

namespace SettlesIn

theorem normal_of_zero {e : Expression} (h : SettlesIn 0 e) : e.Normal := by
  cases h with
  | normal hnormal => exact hnormal

theorem succ {n : Nat} {e : Expression} (h : SettlesIn n e) : SettlesIn (n + 1) e := by
  induction h with
  | normal hnormal => exact .normal hnormal
  | node hkind _ ih => exact .node hkind ih
  | getattr hkind _ ih => exact .getattr hkind ih

theorem mono {n m : Nat} {e : Expression} (h : SettlesIn n e) (hle : n ≤ m) : SettlesIn m e := by
  induction hle with
  | refl => exact h
  | step _ ih => exact ih.succ

theorem of_mem_children {n : Nat} {e c : Expression} (h : SettlesIn n e) (hc : c ∈ e.children) :
    SettlesIn n c := by
  cases h with
  | normal hnormal => exact .normal (hnormal.of_mem_children hc)
  | node _ hchildren => exact hchildren c hc
  | getattr _ hchildren => exact (hchildren c hc).succ

theorem of_mem_nodes {n : Nat} {e x : Expression} (h : SettlesIn n e) (hx : x ∈ e.nodes) :
    SettlesIn n x := by
  induction e using childInduction with
  | node e ih =>
      rcases mem_nodes.1 hx with rfl | ⟨c, hc, hx⟩
      · exact h
      · exact ih c hc (h.of_mem_children hc) hx

theorem of_mem_allEffects {n : Nat} {es : List Expression} (h : ∀ e ∈ es, SettlesIn n e)
    {x : Expression} (hx : x ∈ allEffects es) : SettlesIn n x := by
  obtain ⟨e, he, hx⟩ := mem_allEffects.1 hx
  exact (h e he).of_mem_nodes (mem_nodes_of_mem_effects hx)

/-! ## What the rules make of settling children -/

theorem of_sideEffects {n : Nat} {location : Location} {effects : List Expression}
    {value : Expression} (hne : effects ≠ []) (heffects : ∀ e ∈ effects, SettlesIn n e)
    (hvalue : SettlesIn n value)
    (hnormal : n = 0 → ∀ e ∈ effects, e.mayHaveEffects = true ∧ e.raises = false) :
    SettlesIn n (.sideEffects location effects value) := by
  have hchildren : ∀ c ∈ (Expression.sideEffects location effects value).children,
      SettlesIn n c := by
    intro c hc
    rcases List.mem_append.1 hc with hc | hc
    · exact heffects c hc
    · exact List.mem_singleton.1 hc ▸ hvalue
  cases n with
  | zero =>
      exact .normal (normal_iff.2
        ⟨⟨hne, hnormal rfl⟩, fun c hc => (hchildren c hc).normal_of_zero⟩)
  | succ n => exact .node nofun hchildren

/-- A node in front of which the effects of others come settles with them. Where all are normal,
    nothing that is dropped may raise. -/
theorem after {n : Nat} {node : Expression} {dropped : List Expression} {location : Location}
    (hnode : SettlesIn n node) (hdropped : ∀ e ∈ dropped, SettlesIn n e)
    (hquiet : n = 0 → ∀ e ∈ dropped, e.raises = false) :
    SettlesIn n (node.after dropped location) := by
  have heffects : ∀ x ∈ allEffects dropped, SettlesIn n x :=
    fun x hx => of_mem_allEffects hdropped hx
  have hnormal : n = 0 → ∀ x ∈ allEffects dropped,
      x.mayHaveEffects = true ∧ x.raises = false := by
    rintro rfl x hx
    obtain ⟨e, he, hx⟩ := mem_allEffects.1 hx
    exact ⟨mayHaveEffects_of_mem_effects hx,
      (hdropped e he).normal_of_zero.raises_of_mem_effects (hquiet rfl e he) hx⟩
  rcases after_cases node dropped location with
    ⟨-, hafter⟩ | ⟨place, inner, value, hne, rfl, hafter⟩ | ⟨hne, hafter⟩
  · rw [hafter]
    exact hnode
  · rw [hafter]
    have hinner : ∀ c ∈ inner, SettlesIn n c :=
      fun c hc => hnode.of_mem_children (effect_mem_children hc ..)
    refine of_sideEffects (by simp [hne]) (List.forall_mem_append.2 ⟨heffects, hinner⟩)
      (hnode.of_mem_children (value_mem_children ..)) ?_
    rintro rfl
    exact List.forall_mem_append.2 ⟨hnormal rfl, hnode.normal_of_zero.terminal.2⟩
  · rw [hafter]
    exact of_sideEffects hne heffects hnode hnormal

/-- Every rule but that of the lookup through the builtin keeps the bound of the children. -/
theorem of_rewrites {n : Nat} {node replacement : Expression} {tag : ChangeTag}
    {description : String} (h : Rewrites node replacement tag description)
    (hkind : node.kind ≠ .getattr) (hchildren : ∀ c ∈ node.children, SettlesIn n c) :
    SettlesIn n replacement := by
  cases h with
  | lookupRaises _ => exact hchildren _ (List.mem_singleton.2 rfl)
  | lookupFolds _ => exact .normal (normal_constant _ _)
  | lookupFails _ => exact .normal (normal_raise _ _)
  | specialLookupRaises _ => exact hchildren _ (List.mem_singleton.2 rfl)
  | getattr _ => exact absurd rfl hkind
  | hasattr => exact .normal (normal_constant _ _)
  | calledRaises _ => exact hchildren _ (by simp [children])
  | argsRaise hcalled _ =>
      refine after (hchildren _ (by simp [children])) ?_ ?_
      · exact fun e he => hchildren e (List.mem_append_left [_, _] he)
      · exact fun _ e he => List.mem_singleton.1 he ▸ hcalled
  | kwRaises hcalled hargs _ =>
      refine after (hchildren _ (by simp [children])) ?_ ?_
      · exact fun e he => hchildren e (List.mem_append_left [_] he)
      · exact fun _ => by simp [hcalled, hargs]
  | constantCalled hargs hkw =>
      refine after (.normal (normal_raise _ _)) ?_ ?_
      · exact fun e he => hchildren e (List.mem_cons_of_mem _ he)
      · exact fun _ => by simp [hargs, hkw]
  | effectRaises hquiet _ =>
      refine after (hchildren _ (by simp [children])) ?_ ?_
      · exact fun e he => hchildren e (by simp [children, he])
      · exact fun _ => hquiet
  | effectsRemoved _ => exact hchildren _ (value_mem_children ..)
  | effectsFiltered hquiet hkept _ =>
      refine of_sideEffects hkept ?_ (hchildren _ (value_mem_children ..)) ?_
      · exact fun e he => hchildren e (effect_mem_children (List.mem_filter.1 he).1 ..)
      · exact fun _ e he => ⟨(List.mem_filter.1 he).2, hquiet e (List.mem_filter.1 he).1⟩
  | elementRaises hquiet _ =>
      refine after (hchildren _ (by simp [children])) ?_ ?_
      · exact fun e he => hchildren e (by simp [children, he])
      · exact fun _ => hquiet
  | tupleFolds _ => exact .normal (normal_constant _ _)

/-! ## One pass -/

theorem of_terminal {n : Nat} {e : Expression} (hterminal : e.Terminal)
    (hkind : e.kind ≠ .getattr) (hchildren : ∀ c ∈ e.children, SettlesIn n c) :
    SettlesIn n e := by
  cases n with
  | zero =>
      exact .normal (normal_iff.2 ⟨hterminal, fun c hc => (hchildren c hc).normal_of_zero⟩)
  | succ n => exact .node hkind hchildren

theorem getattr_of_terminal {n : Nat} {e : Expression} (hterminal : e.Terminal)
    (hkind : e.kind = .getattr) (hchildren : ∀ c ∈ e.children, SettlesIn n c) :
    SettlesIn (n + 1) e := by
  cases n with
  | zero =>
      exact .normal (normal_iff.2 ⟨hterminal, fun c hc => (hchildren c hc).normal_of_zero⟩)
  | succ n => exact .getattr hkind hchildren

/-- What takes the place of a lookup through the builtin needs one more pass than its operands: the
    plain lookup has not had its attempt. -/
theorem getattr_of_rewrites {n : Nat} {node replacement : Expression} {tag : ChangeTag}
    {description : String} (h : Rewrites node replacement tag description)
    (hkind : node.kind = .getattr) (hchildren : ∀ c ∈ node.children, SettlesIn n c) :
    SettlesIn (n + 1) replacement := by
  cases h with
  | @getattr location place source name fallback heffects =>
      -- The lookup is new to the next pass, hence a node over the receiver and not a normal one.
      have hsource : SettlesIn (n + 1) source := (hchildren source (by simp [children])).succ
      have hlookup : SettlesIn (n + 1) (.attributeLookup location source name) :=
        .node (fun hplain => by cases hplain) fun c hc => List.mem_singleton.1 hc ▸ hsource
      refine after hlookup (fun e he => ?_) (fun hzero => absurd hzero (Nat.succ_ne_zero n))
      exact (hchildren e (by simp [children, Option.mem_toList.1 he])).succ
  | _ => cases hkind

/-- A pass takes one from the number of passes that a tree still needs. -/
theorem afterPass {n : Nat} {e : Expression} (h : SettlesIn (n + 1) e) :
    SettlesIn n e.afterPass := by
  generalize hm : n + 1 = m at h
  induction h generalizing n with
  | normal hnormal =>
      rw [afterPass_of_normal hnormal]
      exact .normal hnormal
  | @node k e hkind _ ih =>
      obtain rfl : n = k := by omega
      have hchildren : ∀ c ∈ (e.overChildren Expression.afterPass).children, SettlesIn n c :=
        forall_mem_children_overChildren.2 fun c hc => ih c hc rfl
      rcases afterPass_cases e with ⟨hsame, hterminal⟩ | ⟨tag, description, hrewrites⟩
      · rw [hsame]
        exact of_terminal hterminal (by simpa using hkind) hchildren
      · exact of_rewrites hrewrites (by simpa using hkind) hchildren
  | @getattr k e hkind _ ih =>
      -- The extra pass of this node is the one that is over now; what takes its place has the
      -- bound that its operands had before.
      obtain rfl : n = k + 1 := by omega
      have hchildren : ∀ c ∈ (e.overChildren Expression.afterPass).children, SettlesIn k c :=
        forall_mem_children_overChildren.2 fun c hc => ih c hc rfl
      rcases afterPass_cases e with ⟨hsame, hterminal⟩ | ⟨tag, description, hrewrites⟩
      · rw [hsame]
        exact getattr_of_terminal hterminal (by simpa using hkind) hchildren
      · exact getattr_of_rewrites hrewrites (by simpa using hkind) hchildren

/-- A run with a pass to spare finds the tree settled: it reports a fixpoint, after at most one pass
    more than the tree needs. -/
theorem reachedFixpoint {n left : Nat} {tree : Expression} (h : SettlesIn n tree)
    (hleft : n < left) (recording : Bool) (done : Nat) :
    (outcomeFrom recording done left tree).reachedFixpoint = true ∧
      (outcomeFrom recording done left tree).passes ≤ done + n + 1 := by
  induction n generalizing left tree done with
  | zero =>
      -- The tree is normal, so the next pass is the one that finds nothing to do.
      obtain ⟨left, rfl⟩ := Nat.exists_eq_add_of_lt hleft
      rw [Nat.zero_add, outcomeFrom_of_normal h.normal_of_zero]
      exact ⟨rfl, Nat.le_refl _⟩
  | succ n ih =>
      obtain ⟨left, rfl⟩ : ∃ k, left = k + 1 := ⟨left - 1, by omega⟩
      rw [outcomeFrom]
      split
      · exact ⟨rfl, by dsimp only; omega⟩
      · have hfewer : n < left := Nat.lt_of_succ_lt_succ hleft
        obtain ⟨hreached, hpasses⟩ := ih h.afterPass hfewer (done + 1)
        exact ⟨hreached, by dsimp only; omega⟩

end SettlesIn

namespace Expression

/-! ## Nested lookups through the builtin -/

/-- The largest number of lookups through the builtin on a path from the root to a leaf. -/
def getattrDepth (e : Expression) : Nat :=
  (if e.kind = .getattr then 1 else 0) +
    (e.children.attach.map fun c => getattrDepth c.1).foldr max 0
termination_by e
decreasing_by exact sizeOf_lt_of_mem_children c.2

theorem getattrDepth_eq (e : Expression) :
    e.getattrDepth =
      (if e.kind = .getattr then 1 else 0) + (e.children.map getattrDepth).foldr max 0 := by
  rw [getattrDepth, List.attach_map_val]

theorem settlesIn_getattrDepth (e : Expression) : SettlesIn (e.getattrDepth + 1) e := by
  induction e using childInduction with
  | node e ih =>
      let below := (e.children.map getattrDepth).foldr max 0
      have hchildren : ∀ c ∈ e.children, SettlesIn (below + 1) c := fun c hc =>
        (ih c hc).mono (Nat.succ_le_succ
          (List.le_max_of_le' 0 (List.mem_map_of_mem hc) (Nat.le_refl _)))
      rw [getattrDepth_eq]
      split
      · next hkind =>
          rw [Nat.add_comm 1]
          exact .getattr hkind hchildren
      · next hkind =>
          rw [Nat.zero_add]
          exact .node hkind hchildren

theorem getattrDepth_eq_zero {e : Expression} (h : ∀ n ∈ e.nodes, n.kind ≠ .getattr) :
    e.getattrDepth = 0 := by
  induction e using childInduction with
  | node e ih =>
      have hchildren : ∀ d ∈ e.children.map getattrDepth, d ≤ 0 := by
        rw [List.forall_mem_map]
        exact fun c hc =>
          Nat.le_of_eq (ih c hc fun n hn => h n (mem_nodes.2 (Or.inr ⟨c, hc, hn⟩)))
      rw [getattrDepth_eq, if_neg (h e (self_mem_nodes e)), Nat.zero_add]
      exact Nat.le_zero.1 (List.max_le_of_forall_le _ 0 hchildren)

/-- A run that has two passes more than there are nested lookups through the builtin reports a
    fixpoint within as many passes; and where there are none, a second pass keeps the very tree that
    the first one left and takes nothing down. -/
theorem reachedFixpoint_of_getattrDepth (tree : Expression) :
    (∀ settings : Settings, tree.getattrDepth + 2 ≤ settings.maxPasses →
      ∃ o, optimize settings tree = .ok o ∧ o.reachedFixpoint = true ∧
        o.passes ≤ tree.getattrDepth + 2) ∧
    ((∀ n ∈ tree.nodes, n.kind ≠ .getattr) → ∀ j k : Journal,
      ∃ once j' k', tree.pass.run j = .ok (once, j') ∧ once.revisePass.run k = .ok (.kept, k') ∧
        k'.changesInPass = k.changesInPass ∧ k'.records = k.records) := by
  have hsettles := settlesIn_getattrDepth tree
  constructor
  · intro settings hpasses
    obtain ⟨hreached, hbound⟩ :=
      hsettles.reachedFixpoint (by omega : tree.getattrDepth + 1 < settings.maxPasses)
        settings.recordChanges 0
    refine ⟨tree.outcome settings, optimize_eq settings tree, hreached, ?_⟩
    exact Nat.le_trans hbound (by omega)
  · intro hkind j k
    rw [getattrDepth_eq_zero hkind] at hsettles
    obtain ⟨k', hrun, hkept⟩ := revisePass_of_normal hsettles.afterPass.normal_of_zero k
    exact ⟨tree.afterPass, _, k', pass_run tree j, hrun, hkept⟩

theorem nested_getattr_reaches_fixpoint :
    let here : Location := ⟨"m.py", 1⟩
    let lookup := attributeLookup here (constant here (.int 7)) "real"
    let tree := getattr here
      (getattr here (constant here (.int 7)) (constant here (.str "real")) none)
      (constant here (.str "real")) none
    (∃ o, optimize ⟨4, true⟩ tree = .ok o ∧ o.reachedFixpoint = true ∧ o.passes ≤ 4) ∧
    ∃ once j' k', lookup.pass.run (Journal.new true) = .ok (once, j') ∧
      once.revisePass.run (Journal.new true) = .ok (.kept, k') := by
  intro here lookup tree
  have hdepth : tree.getattrDepth = 2 := by
    simp [tree, getattrDepth_eq, children, kind]
  have hfirst := (reachedFixpoint_of_getattrDepth tree).1 ⟨4, true⟩
  rw [hdepth] at hfirst
  have hkind : ∀ n ∈ lookup.nodes, n.kind ≠ .getattr := by
    simp [lookup, nodes_eq, children, kind]
  obtain ⟨once, j', k', hpass, hrun, -⟩ := (reachedFixpoint_of_getattrDepth lookup).2 hkind
    (Journal.new true) (Journal.new true)
  exact ⟨hfirst (Nat.le_refl 4), once, j', k', hpass, hrun⟩

end Expression

end AttributeOptimizer
