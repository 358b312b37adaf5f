import AttributeOptimizer.Proofs.Passes
import Mathlib.Algebra.GroupWithZero.Nat
import Mathlib.Algebra.Order.BigOperators.Group.List
import Mathlib.Algebra.Order.Group.Nat

set_option autoImplicit false

/-! # How many changes a tree admits

The weight of a tree counts each node once, and twice where a rule for its kind may set a new node
in its place. Every rule lowers it (`weight_lt_of_rewrites`), and with it the weight of the whole
tree, so that no sequence of changes is as long as the weight of the tree that it begins with, in
whatever order it makes them (`Changes.length_add_weight_le`). A run is one such sequence
(`run_changes`). -/

namespace AttributeOptimizer

/-- What a node of a kind weighs: two where a rule may set a new node in place of this one alone, in
    front of the operands that it keeps. -/
def Kind.weight : Kind → Nat
  | .getattr | .tuple | .call => 2
  | _ => 1

theorem Kind.weight_pos (kind : Kind) : 0 < kind.weight := by
  cases kind <;> decide

namespace Expression

/-! ## Weights -/

/-- The sum of what the nodes of a tree weigh. -/
def weight (e : Expression) : Nat := (e.nodes.map fun n => n.kind.weight).sum

/-- The weight of several trees. -/
def totalWeight (es : List Expression) : Nat := (es.map weight).sum

@[simp] theorem totalWeight_nil : totalWeight [] = 0 := rfl

@[simp] theorem totalWeight_cons (e : Expression) (rest : List Expression) :
    totalWeight (e :: rest) = e.weight + totalWeight rest := by
  simp [totalWeight]

@[simp] theorem totalWeight_append (as bs : List Expression) :
    totalWeight (as ++ bs) = totalWeight as + totalWeight bs := by
  simp [totalWeight]

theorem weight_eq (e : Expression) : e.weight = e.kind.weight + totalWeight e.children := by
  rw [weight, nodes_eq, List.map_cons, List.sum_cons, List.map_flatMap, List.flatMap_def,
    List.sum_flatten, List.map_map]
  rfl

section WeightOfKinds

variable (location : Location)

@[simp] theorem weight_attributeLookup (source : Expression) (name : String) :
    (attributeLookup location source name).weight = source.weight + 1 := by
  simp [weight_eq (.attributeLookup ..), kind, Kind.weight, children, Nat.add_comm]

@[simp] theorem weight_specialLookup (source : Expression) (name : String) :
    (specialLookup location source name).weight = source.weight + 1 := by
  simp [weight_eq (.specialLookup ..), kind, Kind.weight, children, Nat.add_comm]

@[simp] theorem weight_getattr (source selector : Expression) (fallback : Option Expression) :
    (getattr location source selector fallback).weight =
      source.weight + selector.weight + totalWeight fallback.toList + 2 := by
  simp [weight_eq (.getattr ..), kind, Kind.weight, children]
  omega

@[simp] theorem weight_hasattr (source selector : Expression) :
    (hasattr location source selector).weight = source.weight + selector.weight + 1 := by
  simp [weight_eq (.hasattr ..), kind, Kind.weight, children, Nat.add_comm]

@[simp] theorem weight_constant (value : Constant) : (constant location value).weight = 1 := by
  simp [weight_eq, kind, Kind.weight, children]

@[simp] theorem weight_raise (exception : RaisedException) :
    (raise location exception).weight = 1 := by
  simp [weight_eq, kind, Kind.weight, children]

@[simp] theorem weight_sideEffects (effects : List Expression) (value : Expression) :
    (sideEffects location effects value).weight = totalWeight effects + value.weight + 1 := by
  simp [weight_eq (.sideEffects ..), kind, Kind.weight, children, Nat.add_comm]

@[simp] theorem weight_tuple (elements : List Expression) :
    (tuple location elements).weight = totalWeight elements + 2 := by
  simp [weight_eq, kind, Kind.weight, children, Nat.add_comm]

@[simp] theorem weight_call (called args kw : Expression) :
    (call location called args kw).weight = called.weight + args.weight + kw.weight + 2 := by
  simp [weight_eq (.call ..), kind, Kind.weight, children]
  omega

end WeightOfKinds

theorem weight_pos (e : Expression) : 0 < e.weight := by
  have hkind := e.kind.weight_pos
  rw [weight_eq]
  omega

theorem totalWeight_filter_le (p : Expression → Bool) (es : List Expression) :
    totalWeight (es.filter p) ≤ totalWeight es :=
  (List.filter_sublist.map weight).sum_le_sum fun _ _ => Nat.zero_le _

/-- A list that loses an expression gets lighter. -/
theorem totalWeight_filter_lt {p : Expression → Bool} {es : List Expression}
    (h : ∃ e ∈ es, p e = false) : totalWeight (es.filter p) < totalWeight es := by
  obtain ⟨e, he, hp⟩ := h
  obtain ⟨before, after, rfl⟩ := List.append_of_mem he
  have hbefore := totalWeight_filter_le p before
  have hafter := totalWeight_filter_le p after
  have hpos := e.weight_pos
  simp only [List.filter_append, List.filter_cons, hp, Bool.false_eq_true, if_false,
    totalWeight_append, totalWeight_cons]
  omega

/-! ## What is dropped -/

theorem totalWeight_flatMap_le {f : Expression → List Expression} {es : List Expression}
    (h : ∀ e ∈ es, totalWeight (f e) ≤ e.weight) : totalWeight (es.flatMap f) ≤ totalWeight es := by
  induction es with
  | nil => exact Nat.le_refl 0
  | cons e rest ih =>
      obtain ⟨he, hrest⟩ := List.forall_mem_cons.1 h
      rw [List.flatMap_cons, totalWeight_append, totalWeight_cons]
      exact Nat.add_le_add he (ih hrest)

/-- The effects of an expression weigh no more than the expression. -/
theorem totalWeight_effects_le (e : Expression) : totalWeight e.effects ≤ e.weight := by
  induction e using childInduction with
  | node e ih =>
      cases e with
      | tuple location elements =>
          have helements := totalWeight_flatMap_le ih
          rw [effects, allEffects_eq_flatMap, weight_tuple]
          exact Nat.le_add_right_of_le helements
      | sideEffects location before value =>
          have hbefore := totalWeight_flatMap_le fun c hc => ih c (effect_mem_children hc ..)
          have hvalue := ih value (value_mem_children ..)
          rw [effects, allEffects_eq_flatMap, totalWeight_append, weight_sideEffects]
          omega
      | constant location value => exact Nat.zero_le _
      | var location name => exact Nat.zero_le _
      | _ => exact Nat.le_of_eq (Nat.add_zero _)

theorem totalWeight_allEffects_le (es : List Expression) :
    totalWeight (allEffects es) ≤ totalWeight es := by
  rw [allEffects_eq_flatMap]
  exact totalWeight_flatMap_le fun e _ => e.totalWeight_effects_le

/-- Putting effects in front of a node costs at most the one node that evaluates them. -/
theorem weight_after_le (node : Expression) (dropped : List Expression) (location : Location) :
    (node.after dropped location).weight ≤ totalWeight dropped + node.weight + 1 := by
  have hdropped := totalWeight_allEffects_le dropped
  rcases after_cases node dropped location with
    ⟨-, hafter⟩ | ⟨place, inner, value, -, rfl, hafter⟩ | ⟨-, hafter⟩
  · rw [hafter]
    omega
  · rw [hafter, weight_sideEffects, weight_sideEffects, totalWeight_append]
    omega
  · rw [hafter, weight_sideEffects]
    omega

/-! ## Every rule lowers the weight -/

theorem weight_lt_of_rewrites {node replacement : Expression} {tag : ChangeTag}
    {description : String} (h : Rewrites node replacement tag description) :
    replacement.weight < node.weight := by
  -- A rule that puts a node for effects in front takes away a node that weighs two, or one of the
  -- operands; each other rule gives an operand, a leaf or fewer effects.
  cases h with
  | lookupRaises _ => simp
  | lookupFolds _ => simp
  | lookupFails _ => simp
  | specialLookupRaises _ => simp
  | @getattr location place source name fallback _ =>
      have hafter := weight_after_le (attributeLookup location source name) fallback.toList location
      simp only [weight_attributeLookup, weight_getattr, weight_constant] at hafter ⊢
      omega
  | hasattr => simp
  | calledRaises _ =>
      rw [weight_call]
      omega
  | @argsRaise location called args kw _ _ =>
      have hafter := weight_after_le args [called] location
      simp only [weight_call, totalWeight_cons, totalWeight_nil] at hafter ⊢
      omega
  | @kwRaises location called args kw _ _ _ =>
      have hafter := weight_after_le kw [called, args] location
      simp only [weight_call, totalWeight_cons, totalWeight_nil] at hafter ⊢
      omega
  | @constantCalled location place value args kw _ _ =>
      have hafter := weight_after_le (raise location (.notCallable value.typeName)) [args, kw]
        location
      simp only [weight_call, weight_constant, weight_raise, totalWeight_cons, totalWeight_nil]
        at hafter ⊢
      omega
  | @effectRaises location before rest raising value _ _ =>
      have hafter := weight_after_le raising before location
      have hvalue := value.weight_pos
      simp only [weight_sideEffects, totalWeight_append, totalWeight_cons] at hafter ⊢
      omega
  | effectsRemoved _ =>
      rw [weight_sideEffects]
      omega
  | effectsFiltered _ _ hidle =>
      have hfewer := totalWeight_filter_lt hidle
      rw [weight_sideEffects, weight_sideEffects]
      omega
  | @elementRaises location before rest raising _ _ =>
      have hafter := weight_after_le raising before location
      simp only [weight_tuple, totalWeight_append, totalWeight_cons] at hafter ⊢
      omega
  | tupleFolds _ =>
      rw [weight_constant, weight_tuple]
      omega

end Expression

open Expression

/-! ## Changes at any place, in any order -/

/-- One change of a tree: the answer to an attempt at one of its nodes takes the place of the
    node. -/
inductive ChangesTo : Expression → Expression → Prop where
  /-- The root is replaced. -/
  | here {node replacement : Expression} {tag : ChangeTag} {description : String} :
      node.simplify = .ok (.changed replacement tag description) → ChangesTo node replacement
  /-- A child is changed, the other children staying. -/
  | inChild {e c c' : Expression} {before rest : List Expression} :
      e.children = before ++ c :: rest → ChangesTo c c' →
      ChangesTo e (e.withChildren (before ++ c' :: rest))

/-- A sequence of changes of a tree, each at some place of what the one before left; of the given
    length. -/
inductive Changes : Nat → Expression → Expression → Prop where
  | refl {e : Expression} : Changes 0 e e
  | step {n : Nat} {e between e' : Expression} :
      ChangesTo e between → Changes n between e' → Changes (n + 1) e e'

theorem ChangesTo.weight_lt {e e' : Expression} (h : ChangesTo e e') : e'.weight < e.weight := by
  induction h with
  | @here node replacement tag description hsimplify =>
      have hanswer : node.answer = .changed replacement tag description :=
        Except.ok.inj (node.simplify_eq_answer.symm.trans hsimplify)
      exact weight_lt_of_rewrites (answer_eq_changed_iff.1 hanswer)
  | @inChild e c c' before rest hchildren _ ih =>
      have hfits : (before ++ c' :: rest).length = e.children.length := by
        rw [hchildren, List.length_append, List.length_append, List.length_cons, List.length_cons]
      rw [weight_eq, weight_eq e, kind_withChildren, children_withChildren hfits, hchildren]
      simp only [totalWeight_append, totalWeight_cons]
      omega

namespace Changes

/-- No sequence of changes outlasts the weight of the tree that it begins with. -/
theorem length_add_weight_le {n : Nat} {e e' : Expression} (h : Changes n e e') :
    n + e'.weight ≤ e.weight := by
  induction h with
  | refl => exact Nat.le_of_eq (Nat.zero_add _)
  | step hchange _ ih =>
      have hless := hchange.weight_lt
      omega

theorem trans {n m : Nat} {a b c : Expression} (hab : Changes n a b) (hbc : Changes m b c) :
    Changes (n + m) a c := by
  induction hab with
  | refl => rwa [Nat.zero_add]
  | @step k a between b hchange _ ih =>
      rw [Nat.add_right_comm]
      exact .step hchange (ih hbc)

/-- A child changes within its node. -/
theorem inChild {n : Nat} {c c' : Expression} (h : Changes n c c') {e : Expression}
    {before rest : List Expression} (hchildren : e.children = before ++ c :: rest) :
    Changes n e (e.withChildren (before ++ c' :: rest)) := by
  induction h generalizing e with
  | refl =>
      rw [← hchildren, withChildren_children]
      exact .refl
  | @step k c between c' hchange _ ih =>
      have hfits : ∀ other : Expression,
          (before ++ other :: rest).length = e.children.length := by
        intro other
        rw [hchildren, List.length_append, List.length_append, List.length_cons, List.length_cons]
      have hlater := ih (e := e.withChildren (before ++ between :: rest))
        (children_withChildren (hfits between))
      rw [withChildren_withChildren (hfits between) (hfits c')] at hlater
      exact .step (.inChild hchildren hchange) hlater

/-- The children of a node change one after the other, in order. -/
theorem overChildren {f : Expression → Expression} {count : Expression → Nat} {e : Expression}
    (h : ∀ c ∈ e.children, Changes (count c) c (f c)) :
    Changes ((e.children.map count).sum) e (e.overChildren f) := by
  -- The children before have changed already; the induction is on those that remain.
  have hfrom : ∀ (rest before : List Expression) (e : Expression),
      e.children = before ++ rest → (∀ c ∈ rest, Changes (count c) c (f c)) →
      Changes ((rest.map count).sum) e (e.withChildren (before ++ rest.map f)) := by
    intro rest
    induction rest with
    | nil =>
        intro before e hchildren _
        rw [List.map_nil, List.map_nil, ← hchildren, withChildren_children]
        exact .refl
    | cons c rest ih =>
        intro before e hchildren hrest
        obtain ⟨hc, hrest⟩ := List.forall_mem_cons.1 hrest
        have hfits : (before ++ f c :: rest).length = e.children.length := by
          rw [hchildren]
          simp
        have hlater := ih (before ++ [f c]) (e.withChildren (before ++ f c :: rest))
          (by rw [children_withChildren hfits]; simp) hrest
        rw [withChildren_withChildren hfits (by rw [hchildren]; simp)] at hlater
        have hall := (hc.inChild hchildren).trans hlater
        simpa using hall
  exact hfrom e.children [] e rfl h

end Changes

/-! ## The changes of a run -/

namespace Expression

theorem changes_afterAttempt (node : Expression) :
    Changes node.change?.toList.length node node.afterAttempt := by
  unfold change? afterAttempt
  cases h : node.answer with
  | unchanged => exact .refl
  | changed replacement tag description =>
      have hsimplify : node.simplify = .ok (.changed replacement tag description) := by
        rw [simplify_eq_answer, h]
      exact .step (.here hsimplify) .refl

/-- A pass makes the changes that it reports, one after the other. -/
theorem changes_afterPass (e : Expression) : Changes e.changeLog.length e e.afterPass := by
  induction e using childInduction with
  | node e ih =>
      have hchildren : Changes ((e.children.map fun c => c.changeLog.length).sum) e
          (e.overChildren afterPass) := Changes.overChildren ih
      have hnode := changes_afterAttempt (e.overChildren afterPass)
      rw [changeLog_eq, List.length_append, List.length_flatMap, afterPass_eq]
      exact hchildren.trans hnode

end Expression

/-- Whether an event is a change. -/
def Event.isChange : Event → Bool
  | .change .. => true
  | _ => false

namespace Journal

/-- The number of changes that were noted, recorded or not. -/
def changeCount (j : Journal) : Nat := j.events.toList.countP Event.isChange

@[simp] theorem changeCount_new (recording : Bool) : (new recording).changeCount = 0 := rfl

@[simp] theorem changeCount_note (j : Journal) (event : Event) :
    (j.note event).changeCount = j.changeCount + if event.isChange then 1 else 0 := by
  simp [changeCount, note, List.countP_cons]

@[simp] theorem changeCount_noteRemark (j : Journal) (remark : Option Remark) :
    (j.noteRemark remark).changeCount = j.changeCount := by
  cases remark with
  | none => rfl
  | some remark => exact changeCount_note j (.remark remark)

@[simp] theorem changeCount_change (j : Journal) (tag : ChangeTag) (location : Location)
    (message : String) : (j.change tag location message).changeCount = j.changeCount + 1 := by
  have hnote := changeCount_note j (.change tag location message)
  unfold change
  split <;> exact hnote

theorem changeCount_attempt (j : Journal) (node : Expression) :
    (j.attempt node).changeCount = j.changeCount + node.change?.toList.length := by
  unfold attempt Expression.change?
  split <;> simp

theorem changeCount_attemptAll (j : Journal) (nodes : List Expression) :
    (j.attemptAll nodes).changeCount =
      j.changeCount + (nodes.filterMap Expression.change?).length := by
  induction nodes generalizing j with
  | nil => rfl
  | cons node rest ih =>
      rw [attemptAll, List.foldl_cons, ← attemptAll, ih, changeCount_attempt,
        Expression.filterMap_change?_cons, List.length_append, Nat.add_assoc]

theorem changeCount_afterPass (j : Journal) (tree : Expression) :
    (j.afterPass tree).changeCount = j.changeCount + tree.changeLog.length :=
  (changeCount_note _ _).trans (changeCount_attemptAll j.startPass tree.attempts)

/-- A journal that records has a record of every change. -/
def Complete (j : Journal) : Prop := j.recording = true → j.records.size = j.changeCount

theorem Complete.afterPass {j : Journal} (h : j.Complete) (tree : Expression) :
    (j.afterPass tree).Complete := by
  intro hrecording
  rw [recording_afterPass] at hrecording
  have hrecords := congrArg List.length (records_afterPass j tree)
  have hstart : j.startPass.recording = true := hrecording
  rw [List.length_append, Array.length_toList, Array.length_toList, recordsOf, if_pos hstart,
    List.length_map] at hrecords
  rw [hrecords, changeCount_afterPass, h hrecording]

end Journal

namespace Expression

/-- Passes make the changes that they note, one after the other. -/
theorem passes_changes (left : Nat) (tree : Expression) {j : Journal} (hj : j.Complete) :
    ∃ tree' reached j' n, (passes left tree).run j = .ok ((tree', reached), j') ∧
      Changes n tree tree' ∧ j'.changeCount = j.changeCount + n ∧
      j'.recording = j.recording ∧ j'.Complete := by
  induction left generalizing tree j with
  | zero => exact ⟨tree, false, j, 0, rfl, .refl, rfl, rfl, hj⟩
  | succ left ih =>
      have hpass := changes_afterPass tree
      rw [passes_run_succ]
      split
      · next hnone =>
          exact ⟨_, _, _, _, rfl, hpass, j.changeCount_afterPass tree, j.recording_afterPass tree,
            hj.afterPass tree⟩
      · obtain ⟨tree', reached, j', n, hrun, hlater, hcount, hrecording, hcomplete⟩ :=
          ih tree.afterPass (hj.afterPass tree)
        refine ⟨tree', reached, j', _, hrun, hpass.trans hlater, ?_, ?_, hcomplete⟩
        · rw [hcount, Journal.changeCount_afterPass, Nat.add_assoc]
        · rw [hrecording, Journal.recording_afterPass]

/-- A run makes a sequence of changes, as many as its journal notes and, where they are recorded, as
    many as its outcome lists. -/
theorem run_changes (settings : Settings) (tree : Expression) :
    ∃ o j, run settings tree = .ok (o, j) ∧ Changes j.changeCount tree o.tree ∧
      (settings.recordChanges = true → o.changes.length = j.changeCount) := by
  have hnew : (Journal.new settings.recordChanges).Complete := fun _ => rfl
  obtain ⟨tree', reached, j, n, hrun, hchanges, hcount, hrecording, hcomplete⟩ :=
    passes_changes settings.maxPasses tree hnew
  let ending : Event := if reached then .reachedFixpoint j.pass else .stoppedEarly j.pass
  have hending : (j.note ending).changeCount = n := by
    have hquiet : ending.isChange = false := by cases reached <;> rfl
    simp [hquiet, hcount]
  refine ⟨_, j.note ending, run_of_passes hrun, ?_, ?_⟩
  · rw [hending]
    exact hchanges
  · intro hrecord
    rw [hending, Array.length_toList, hcomplete (hrecording.trans hrecord), hcount,
      Journal.changeCount_new, Nat.zero_add]

/-- Every answer that changes a node is lighter than the node. So no sequence of changes, at
    whatever places and in whatever order, is as long as the weight of the tree that it begins with;
    and the changes of a run, whatever its settings, are such a sequence. -/
theorem changes_lt_weight (tree : Expression) :
    (∀ replacement tag description,
      tree.simplify = .ok (.changed replacement tag description) →
        replacement.weight < tree.weight) ∧
    (∀ n tree', Changes n tree tree' → n ≤ tree.weight - 1) ∧
    ∀ settings : Settings, ∃ o j, run settings tree = .ok (o, j) ∧
      Changes j.changeCount tree o.tree ∧ j.changeCount < tree.weight ∧
      (settings.recordChanges = true → o.changes.length = j.changeCount) := by
  have hbound : ∀ n tree', Changes n tree tree' → n < tree.weight := by
    intro n tree' hchanges
    have hlength := hchanges.length_add_weight_le
    have hpos := tree'.weight_pos
    omega
  refine ⟨?_, ?_, ?_⟩
  · intro replacement tag description hsimplify
    exact (ChangesTo.here hsimplify).weight_lt
  · intro n tree' hchanges
    exact Nat.le_sub_one_of_lt (hbound n tree' hchanges)
  · intro settings
    obtain ⟨o, j, hrun, hchanges, hrecords⟩ := run_changes settings tree
    exact ⟨o, j, hrun, hchanges, hbound _ _ hchanges, hrecords⟩

/-- A lookup through the builtin in a tuple: the lookup changes twice, then the tuple. -/
theorem tuple_of_getattr_changes_thrice :
    let here : Location := ⟨"m.py", 1⟩
    let name := constant here (.str "real")
    let seven := constant here (.int 7)
    let tree := tuple here [getattr here seven name none]
    (attributeLookup here seven "real").weight < (getattr here seven name none).weight ∧
    tree.weight = 6 ∧ 3 ≤ tree.weight - 1 ∧
    ∃ o j, run .standard tree = .ok (o, j) ∧ j.changeCount < tree.weight ∧
      o.changes.length = j.changeCount := by
  intro here name seven tree
  have hweight : tree.weight = 6 := by simp [tree, seven, name]
  have hchanges : Changes 3 tree (constant here (.tuple [.int 7])) := by
    have hgetattr : Changes 2 (getattr here seven name none) seven :=
      .step (.here rfl) (.step (.here rfl) .refl)
    have hchild : tree.children = [] ++ getattr here seven name none :: [] := rfl
    exact (hgetattr.inChild hchild).trans (.step (.here rfl) .refl)
  obtain ⟨o, j, hrun, -, hcount, hrecords⟩ := (changes_lt_weight tree).2.2 .standard
  exact ⟨(changes_lt_weight (getattr here seven name none)).1 _ _ _ rfl, hweight,
    (changes_lt_weight tree).2.1 3 _ hchanges, o, j, hrun, hcount, hrecords rfl⟩

end Expression

end AttributeOptimizer
