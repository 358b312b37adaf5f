import AttributeOptimizer.Proofs.Skeletons

set_option autoImplicit false

/-! # Visiting the children of a node

A visitor may have a state, which it hands on from call to call, and may fail. `Calls` says which
calls it gets over a list of nodes: one for each, in order, until one fails. These are the calls
that `Expression.mapChildren` makes over the children of a node (`calls_mapM`), where they are
noted by the visitor itself (`Visitor.noting`); what the node becomes is then a matter of their
answers alone. -/

namespace AttributeOptimizer

/-- A function on nodes with a state and errors. The state is left behind by a failing call too. -/
abbrev Visitor (ε σ : Type) := Expression → ExceptT ε (StateM σ) Revision

/-- One call of a visitor. -/
structure Visit (ε σ : Type) where
  /-- The node that the visitor is given. -/
  node : Expression
  /-- The state that it finds. -/
  before : σ
  /-- What it answers. -/
  answer : Except ε Revision
  /-- The state that it leaves. -/
  after : σ

variable {ε σ : Type}

namespace Visitor

/-- The call of a visitor on a node in a state. -/
def call (visit : Visitor ε σ) (node : Expression) (before : σ) : Visit ε σ :=
  let (answer, after) := (visit node).run.run before
  ⟨node, before, answer, after⟩

/-- The visitor that does the same, and notes each call after those that are noted already. -/
def noting (visit : Visitor ε σ) : Visitor ε (σ × List (Visit ε σ)) := fun node => ExceptT.mk do
  let (before, noted) ← get
  let v := visit.call node before
  set (v.after, noted ++ [v])
  return v.answer

end Visitor

/-! ## Relinking

Each kind of node is relinked in its own way. What comes of it is the same for all: the node with
its children replaced, and a flag that no other node has taken the place of a child. -/

section Relinking

open Expression

variable {m : Type → Type} [Monad m] [LawfulMonad m] (visit : Expression → m Revision)

/-- What a traversal is followed by matters only for answers that are as many as the visits. -/
theorem mapM_bind_congr {α β γ : Type} {f : α → m β} {k k' : List β → m γ} {as : List α}
    (h : ∀ bs, bs.length = as.length → k bs = k' bs) : as.mapM f >>= k = as.mapM f >>= k' := by
  induction as generalizing k k' with
  | nil => simpa using h [] rfl
  | cons a as ih =>
      simp only [List.mapM_cons, bind_assoc, pure_bind]
      refine bind_congr fun b => ih fun bs hbs => h (b :: bs) ?_
      rw [List.length_cons, hbs, List.length_cons]

theorem run_relink (child : Expression) (changed : Bool) :
    (relink visit child).run changed = (do
      let revision ← visit child
      return (revision.node child, changed || !revision.isKept)) := by
  rw [relink, StateT.run_bind]
  simp only [StateT.run_monadLift, monadLift_self, bind_assoc, pure_bind]
  refine bind_congr fun revision => ?_
  cases revision <;> simp [Revision.isKept]

theorem run_mapM_relink (nodes : List Expression) (changed : Bool) :
    (nodes.mapM (relink visit)).run changed = (do
      let revisions ← nodes.mapM visit
      return (nodes.zipWith (fun c r => r.node c) revisions,
        changed || !revisions.all Revision.isKept)) := by
  induction nodes generalizing changed with
  | nil => simp
  | cons node rest ih =>
      simp only [List.mapM_cons, StateT.run_bind, run_relink, ih, bind_assoc, pure_bind]
      refine bind_congr fun revision => bind_congr fun revisions => ?_
      simp [Bool.or_assoc]

theorem run_relinkChildren (e : Expression) :
    (relinkChildren visit e).run false = (do
      let revisions ← e.children.mapM visit
      return (e.withChildren (e.children.zipWith (fun c r => r.node c) revisions),
        !revisions.all Revision.isKept)) := by
  cases e with
  | getattr location source selector fallback =>
      cases fallback <;>
        simp [relinkChildren, run_relink, children, withChildren, Bool.or_assoc]
  | sideEffects location effects value =>
      simp only [relinkChildren, children, withChildren, StateT.run_bind, run_mapM_relink,
        run_relink, List.mapM_append, bind_assoc, pure_bind]
      -- The value is told from the effects by how many of these there are.
      refine mapM_bind_congr fun revisions hlength => ?_
      simp [List.zipWith_append, hlength]
  | tuple location elements => simp [relinkChildren, run_mapM_relink, children, withChildren]
  | _ => simp [relinkChildren, run_relink, children, withChildren, Bool.or_assoc]

/-- A node is visited by a traversal of its children, and becomes what their revisions make of
    it. -/
theorem Expression.mapChildren_eq (e : Expression) :
    mapChildren visit e = (do
      let revisions ← e.children.mapM visit
      return e.revise revisions) := by
  rw [mapChildren, run_relinkChildren, bind_assoc]
  refine bind_congr fun revisions => ?_
  rw [pure_bind, revise]
  cases revisions.all Revision.isKept <;> rfl

end Relinking

/-! ## Running visitors -/

section Run

variable {α β : Type} {work : ExceptT ε (StateM σ) α} {later : α → ExceptT ε (StateM σ) β}
  {s s' : σ}

theorem run_bind_of_answer {a : α} (h : work.run.run s = (.ok a, s')) :
    (work >>= later).run.run s = (later a).run.run s' := by
  rw [ExceptT.run_bind, StateT.run_bind, h]
  rfl

theorem run_bind_of_failure {error : ε} (h : work.run.run s = (.error error, s')) :
    (work >>= later).run.run s = (.error error, s') := by
  rw [ExceptT.run_bind, StateT.run_bind, h]
  rfl

end Run

theorem Visitor.run_eq (visit : Visitor ε σ) (node : Expression) (s : σ) :
    (visit node).run.run s = ((visit.call node s).answer, (visit.call node s).after) := rfl

theorem Visitor.run_noting (visit : Visitor ε σ) (node : Expression) (s : σ)
    (noted : List (Visit ε σ)) :
    (visit.noting node).run.run (s, noted) =
      ((visit.call node s).answer, (visit.call node s).after, noted ++ [visit.call node s]) := rfl

/-! ## Calls over a list of nodes -/

/-- The calls that a visitor gets over a list of nodes from a state on, what they answer together,
    and the state that the last of them leaves. -/
inductive Calls (visit : Visitor ε σ) :
    List Expression → σ → List (Visit ε σ) → Except ε (List Revision) → σ → Prop where
  | done {s : σ} : Calls visit [] s [] (.ok []) s
  | failed {node : Expression} {rest : List Expression} {s : σ} {error : ε} :
      (visit.call node s).answer = .error error →
      Calls visit (node :: rest) s [visit.call node s] (.error error) (visit.call node s).after
  | answered {node : Expression} {rest : List Expression} {s last : σ} {revision : Revision}
      {calls : List (Visit ε σ)} {answer : Except ε (List Revision)} :
      (visit.call node s).answer = .ok revision →
      Calls visit rest (visit.call node s).after calls answer last →
      Calls visit (node :: rest) s (visit.call node s :: calls) (answer.map (revision :: ·)) last

/-- Over a list of nodes a visitor gets the calls that it notes, and noting them changes nothing. -/
theorem calls_mapM (visit : Visitor ε σ) (nodes : List Expression) (s : σ)
    (noted : List (Visit ε σ)) :
    ∃ answer last calls, (nodes.mapM visit).run.run s = (answer, last) ∧
      (nodes.mapM visit.noting).run.run (s, noted) = (answer, last, noted ++ calls) ∧
      Calls visit nodes s calls answer last := by
  induction nodes generalizing s noted with
  | nil => exact ⟨.ok [], s, [], rfl, by rw [List.append_nil]; rfl, .done⟩
  | cons node rest ih =>
      -- Both runs make the call on the first node and go on, if at all, in the state it leaves.
      have hrun := visit.run_eq node s
      have hnoting := visit.run_noting node s noted
      rw [List.mapM_cons, List.mapM_cons]
      cases hanswer : (visit.call node s).answer with
      | error error =>
          rw [hanswer] at hrun hnoting
          exact ⟨_, _, _, run_bind_of_failure hrun, run_bind_of_failure hnoting, .failed hanswer⟩
      | ok revision =>
          rw [hanswer] at hrun hnoting
          obtain ⟨answer, last, calls, hrest, hrest', hcalls⟩ :=
            ih (visit.call node s).after (noted ++ [visit.call node s])
          rw [List.append_assoc, List.singleton_append] at hrest'
          refine ⟨_, last, _, ?_, ?_, .answered hanswer hcalls⟩
          · rw [run_bind_of_answer hrun]
            cases answer with
            | error error => exact run_bind_of_failure hrest
            | ok revisions => rw [run_bind_of_answer hrest]; rfl
          · rw [run_bind_of_answer hnoting]
            cases answer with
            | error error => exact run_bind_of_failure hrest'
            | ok revisions => rw [run_bind_of_answer hrest']; rfl

namespace Calls

variable {visit : Visitor ε σ} {nodes : List Expression} {s last : σ}
  {calls : List (Visit ε σ)} {answer : Except ε (List Revision)}

theorem eq_call (h : Calls visit nodes s calls answer last) :
    ∀ v ∈ calls, v = visit.call v.node v.before := by
  induction h with
  | done => exact List.forall_mem_nil _
  | failed _ => exact List.forall_mem_singleton.2 rfl
  | answered _ _ ih => exact List.forall_mem_cons.2 ⟨rfl, ih⟩

/-- Each call finds the state that the one before it has left. -/
theorem states (h : Calls visit nodes s calls answer last) :
    s :: calls.map Visit.after = calls.map Visit.before ++ [last] := by
  induction h with
  | done => rfl
  | failed _ => rfl
  | answered _ _ ih => rw [List.map_cons, ih]; rfl

theorem isPrefix (h : Calls visit nodes s calls answer last) :
    calls.map Visit.node <+: nodes := by
  induction h with
  | done => exact List.nil_prefix
  | failed _ => exact List.cons_prefix_cons.2 ⟨rfl, List.nil_prefix⟩
  | answered _ _ ih => exact List.cons_prefix_cons.2 ⟨rfl, ih⟩

/-- Without an error each node gets its call. -/
theorem of_ok (h : Calls visit nodes s calls answer last) {revisions : List Revision}
    (hok : answer = .ok revisions) :
    calls.map Visit.node = nodes ∧ calls.map Visit.answer = revisions.map .ok := by
  induction h generalizing revisions with
  | done =>
      cases hok
      exact ⟨rfl, rfl⟩
  | failed _ => cases hok
  | @answered _ _ _ _ revision _ answer hanswer _ ih =>
      cases answer with
      | error error => cases hok
      | ok later =>
          cases hok
          obtain ⟨hnodes, hanswers⟩ := ih rfl
          exact ⟨congrArg _ hnodes, by rw [List.map_cons, hanswers, hanswer]; rfl⟩

/-- The first call to fail is the last that is made, and its error is the answer. -/
theorem of_error (h : Calls visit nodes s calls answer last) {error : ε}
    (herror : answer = .error error) :
    ∃ earlier v, calls = earlier ++ [v] ∧ v.answer = .error error ∧
      ∀ u ∈ earlier, ∃ revision, u.answer = .ok revision := by
  induction h with
  | done => cases herror
  | failed hanswer =>
      cases herror
      exact ⟨[], _, rfl, hanswer, List.forall_mem_nil _⟩
  | @answered _ _ _ _ revision _ answer hanswer _ ih =>
      cases answer with
      | error error =>
          cases herror
          obtain ⟨earlier, v, rfl, hv, hearlier⟩ := ih rfl
          exact ⟨_ :: earlier, v, rfl, hv, List.forall_mem_cons.2 ⟨⟨revision, hanswer⟩, hearlier⟩⟩
      | ok later => cases herror

end Calls

/-! ## The node afterwards -/

theorem Revision.isKept_iff {r : Revision} : r.isKept = true ↔ r = .kept := by
  cases r <;> simp [isKept]

namespace Expression

/-- Nodes with one label, at one place and with as many children have children in the same roles,
    and as many in each. -/
theorem roles_of_label_eq {a b : Expression} (hlabel : a.label = b.label)
    (hlocation : a.location = b.location) (hlength : a.children.length = b.children.length)
    (role : Role) :
    (a.child? role).map Option.isSome = (b.child? role).map Option.isSome ∧
      (a.childSequence role).map List.length = (b.childSequence role).map List.length := by
  cases a <;> cases b <;> cases hlabel <;> simp only [location] at hlocation <;> subst hlocation
  case getattr.getattr fallback _ _ fallback' =>
    -- A fallback is told from a missing one by the number of children.
    cases fallback <;> cases fallback' <;> cases hlength <;> cases role <;> exact ⟨rfl, rfl⟩
  case sideEffects.sideEffects effects _ effects' _ =>
    have heffects : effects.length = effects'.length := by simpa [children] using hlength
    cases role <;> first | exact ⟨rfl, rfl⟩ | exact ⟨rfl, congrArg Except.ok heffects⟩
  case tuple.tuple =>
    cases role <;> first | exact ⟨rfl, rfl⟩ | exact ⟨rfl, congrArg Except.ok hlength⟩
  all_goals cases role <;> exact ⟨rfl, rfl⟩

theorem revise_eq_kept_iff {e : Expression} {revisions : List Revision} :
    e.revise revisions = .kept ↔ ∀ r ∈ revisions, r = .kept := by
  have hall : revisions.all Revision.isKept = true ↔ ∀ r ∈ revisions, r = .kept := by
    rw [List.all_eq_true]
    exact forall₂_congr fun r _ => Revision.isKept_iff
  rw [← hall, revise]
  split
  · next h => exact iff_of_true rfl h
  · next h => exact iff_of_false nofun h

theorem eq_of_revise_eq_replaced {e node : Expression} {revisions : List Revision}
    (h : e.revise revisions = .replaced node) :
    node = e.withChildren (e.children.zipWith (fun c r => r.node c) revisions) := by
  unfold revise at h
  split at h
  · cases h
  · exact (Revision.replaced.inj h).symm

/-- The children of a node are visited in order, each once and in the state that the visit before it
    has left, up to the first error, which is then the answer. Without an error the very node is
    kept exactly if every answer was to keep the very child; otherwise there is a node of the same
    kind, with the same data and at the same place, over what the answers made of the children. It
    has a fallback exactly if the node has one, and sequences as long as those of the node. -/
theorem children_are_visited_in_order (visit : Visitor ε σ) (e : Expression) (s : σ) :
    ∃ answer last calls,
      (mapChildren visit e).run.run s = (answer, last) ∧
      (mapChildren visit.noting e).run.run (s, []) = (answer, last, calls) ∧
      (∀ v ∈ calls, v = visit.call v.node v.before) ∧
      s :: calls.map Visit.after = calls.map Visit.before ++ [last] ∧
      calls.map Visit.node <+: e.children ∧
      (∀ error, answer = .error error → ∃ earlier v, calls = earlier ++ [v] ∧
        v.answer = .error error ∧ ∀ u ∈ earlier, ∃ revision, u.answer = .ok revision) ∧
      ∀ revision, answer = .ok revision → calls.map Visit.node = e.children ∧
        ∃ revisions, calls.map Visit.answer = revisions.map .ok ∧
          (revision = .kept ↔ ∀ r ∈ revisions, r = .kept) ∧
          ∀ node, revision = .replaced node →
            node.kind = e.kind ∧ node.location = e.location ∧ node.label = e.label ∧
            node.children = e.children.zipWith (fun c r => r.node c) revisions ∧
            ∀ role, (node.child? role).map Option.isSome = (e.child? role).map Option.isSome ∧
              (node.childSequence role).map List.length =
                (e.childSequence role).map List.length := by
  obtain ⟨answers, last, calls, hrun, hnoting, hcalls⟩ := calls_mapM visit e.children s []
  rw [List.nil_append] at hnoting
  rw [mapChildren_eq, mapChildren_eq]
  cases answers with
  | error error =>
      refine ⟨.error error, last, calls, run_bind_of_failure hrun, run_bind_of_failure hnoting,
        hcalls.eq_call, hcalls.states, hcalls.isPrefix, ?_, nofun⟩
      intro error' herror
      cases herror
      exact hcalls.of_error rfl
  | ok revisions =>
      obtain ⟨hnodes, hanswers⟩ := hcalls.of_ok rfl
      refine ⟨.ok (e.revise revisions), last, calls, run_bind_of_answer hrun,
        run_bind_of_answer hnoting, hcalls.eq_call, hcalls.states, hcalls.isPrefix, nofun, ?_⟩
      intro revision hrevision
      cases hrevision
      refine ⟨hnodes, revisions, hanswers, revise_eq_kept_iff, ?_⟩
      intro node hnode
      obtain rfl := eq_of_revise_eq_replaced hnode
      have hlength : revisions.length = e.children.length := by
        rw [← hnodes, List.length_map, ← List.length_map Visit.answer, hanswers, List.length_map]
      have hfits : (e.children.zipWith (fun c r => r.node c) revisions).length =
          e.children.length := by
        rw [List.length_zipWith, hlength, Nat.min_self]
      have hchildren := children_withChildren hfits
      refine ⟨kind_withChildren e _, location_withChildren e _, label_withChildren e _, hchildren,
        roles_of_label_eq (label_withChildren e _) (location_withChildren e _) ?_⟩
      rw [hchildren, hfits]

/-- The second of three children ends the visit: two are counted, and its error is the answer. -/
theorem raising_child_ends_visit :
    let here : Location := ⟨"m.py", 1⟩
    let raising := raise here ⟨.keyError, "k"⟩
    let e := call here (var here "f") raising (var here "kw")
    let visit : Visitor String Nat := fun node => do
      modify (· + 1)
      if node.kind = .raise then throw "found" else return .kept
    (mapChildren visit e).run.run 0 = (.error "found", 2) ∧
    ∃ earlier v, (mapChildren visit.noting e).run.run (0, []) =
        (.error "found", 2, earlier ++ [v]) ∧
      v.answer = .error "found" ∧ v.node = raising ∧ earlier.map Visit.node = [var here "f"] := by
  intro here raising e visit
  obtain ⟨answer, last, calls, hrun, hnoting, -, -, -, hfailed, -⟩ :=
    children_are_visited_in_order visit e 0
  have hstops : (mapChildren visit e).run.run 0 = (.error "found", 2) := rfl
  obtain ⟨rfl, rfl⟩ := Prod.mk.inj (hrun.symm.trans hstops)
  obtain ⟨earlier, v, rfl, hv, -⟩ := hfailed "found" rfl
  have hnodes : (earlier ++ [v]).map Visit.node = [var here "f"] ++ [raising] := by
    rw [← (Prod.mk.inj (Prod.mk.inj hnoting).2).2]
    rfl
  rw [List.map_append, List.map_singleton] at hnodes
  obtain ⟨hearlier, hlast⟩ := List.append_inj' hnodes rfl
  exact ⟨hstops, earlier, v, hnoting, hv, (List.cons.inj hlast).1, hearlier⟩

/-- A walk of a tree visits the children of each node so, by walks of their own, and then the node
    that is relinked to what they have become. -/
theorem bottomUp_eq_mapChildren {m : Type → Type} [Monad m] [LawfulMonad m]
    (visit : Expression → m Revision) (e : Expression) :
    bottomUp visit e = (do
      let relinked ← mapChildren (bottomUp visit) e
      match ← visit (relinked.node e) with
      | .kept => return relinked
      | .replaced node => return .replaced node) := by
  rw [bottomUp_eq, mapChildren_eq, bind_assoc]
  refine bind_congr fun revisions => ?_
  rw [pure_bind]
  rfl

end Expression

end AttributeOptimizer
