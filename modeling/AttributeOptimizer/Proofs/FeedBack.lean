import AttributeOptimizer.Proofs.FiniteTrees
import AttributeOptimizer.Proofs.Nesting
import AttributeOptimizer.Proofs.NormalForm

set_option autoImplicit false

/-! # Reading optimized trees

The text of an optimized tree is read as that tree exactly if it is not nested beyond the limit: the
floats of the tree are those of the tree before, and zero, and the limit is all that could then keep
the text from being read. A tree that was read can pass the limit while it is optimized
(`optimized_tree_is_refused`), but not if it has room (`optimized_tree_is_read`). -/

namespace AttributeOptimizer

namespace Expression

/-! ## The floats of an optimized tree -/

section Floats

variable {p : Binary64 → Prop}

theorem forall_mem_floats_of_mem_children {e : Expression} (h : ∀ x ∈ e.floats, p x) :
    ∀ c ∈ e.children, ∀ x ∈ c.floats, p x :=
  (forall_mem_floats.1 h).2

theorem forall_mem_floats_overChildren {e : Expression} {f : Expression → Expression}
    (he : ∀ x ∈ e.floats, p x) (h : ∀ c ∈ e.children, ∀ x ∈ (f c).floats, p x) :
    ∀ x ∈ (e.overChildren f).floats, p x := by
  refine forall_mem_floats.2 ⟨fun value hvalue => ?_, forall_mem_children_overChildren.2 h⟩
  cases e with
  | constant location value => exact (forall_mem_floats.1 he).1 _ hvalue
  | _ => simp [constant?] at hvalue

/-- A data attribute is without floats, or has the float that it is looked up on, or zero. -/
theorem forall_mem_floats_of_lookupAttribute {c folded : Constant} {name : String}
    (h : c.lookupAttribute name = .ok (some folded)) (hzero : p Binary64.zero)
    (hfloats : ∀ x ∈ c.floats, p x) : ∀ x ∈ folded.floats, p x := by
  rcases Constant.lookupAttribute_cases h with ⟨i, rfl⟩ | ⟨x, rfl, rfl⟩ | rfl
  · exact List.forall_mem_nil _
  · exact hfloats
  · exact List.forall_mem_singleton.2 hzero

/-- The floats of a constant tuple are those of its elements. -/
theorem forall_mem_floats_tuple {elements : List Expression} {values : List Constant}
    (hvalues : elements.map constant? = values.map some)
    (h : ∀ e ∈ elements, ∀ x ∈ e.floats, p x) : ∀ x ∈ (Constant.tuple values).floats, p x := by
  rw [Constant.floats, Constant.elementsFloats_eq_flatMap, List.forall_mem_flatMap]
  intro value hvalue
  obtain ⟨e, he, hconstant⟩ := List.mem_map.1 (hvalues ▸ List.mem_map_of_mem hvalue)
  exact (forall_mem_floats.1 (h e he)).1 value hconstant

/-- The floats of the constant that a node folds to are among those of the node, or zero. -/
theorem forall_mem_floats_of_foldsTo {node : Expression} {value : Constant}
    (h : FoldsTo node value) (hzero : p Binary64.zero)
    (hchildren : ∀ c ∈ node.children, ∀ x ∈ c.floats, p x) : ∀ x ∈ value.floats, p x := by
  cases h with
  | lookup hfolds =>
      have hsource := hchildren _ (List.mem_singleton.2 rfl)
      rw [floats_constant] at hsource
      exact forall_mem_floats_of_lookupAttribute hfolds hzero hsource
  | hasattr => exact List.forall_mem_nil _
  | tuple hvalues => exact forall_mem_floats_tuple hvalues hchildren

theorem forall_mem_floats_of_rewrites {node replacement : Expression} {tag : ChangeTag}
    {description : String} (h : Rewrites node replacement tag description)
    (hzero : p Binary64.zero) (hfloats : ∀ x ∈ node.floats, p x) :
    ∀ x ∈ replacement.floats, p x := by
  have hchildren := forall_mem_floats_of_mem_children hfloats
  rw [floats, List.forall_mem_flatMap]
  refine forall_mem_nodes_of_rewrites h (fun c hc => List.forall_mem_flatMap.1 (hchildren c hc))
    (fun value hfolds => forall_mem_floats_of_foldsTo hfolds hzero hchildren) ?_
  intro n hmade _
  have hnone : n.constant? = none := by
    cases n with
    | constant => rcases hmade with hmade | hmade | hmade <;> cases hmade
    | _ => rfl
  rw [hnone]
  exact List.forall_mem_nil _

theorem forall_mem_floats_afterPass {e : Expression} (hzero : p Binary64.zero)
    (h : ∀ x ∈ e.floats, p x) : ∀ x ∈ e.afterPass.floats, p x := by
  induction e using childInduction with
  | node e ih =>
      have hchildren := forall_mem_floats_overChildren h fun c hc =>
        ih c hc (forall_mem_floats_of_mem_children h c hc)
      rw [afterPass_eq]
      rcases afterAttempt_cases (e.overChildren afterPass) with ⟨hsame, -⟩ | ⟨_, _, hrewrites⟩
      · rwa [hsame]
      · exact forall_mem_floats_of_rewrites hrewrites hzero hchildren

end Floats

/-! ## The texts of an optimized tree -/

theorem parse?_outcome {tree : Expression}
    (hfloats : ∀ x ∈ tree.floats, x.isFinite = true ∧ x.ReadsBack) (settings : Settings) :
    let after := (tree.outcome settings).tree
    let result := if after.toJson.depth ≤ Json.depthLimit then some after else none
    parse? after.toJson.compact = result ∧ parse? after.toJson.pretty = result := by
  intro after result
  have hzero : Binary64.zero.isFinite = true ∧ Binary64.zero.ReadsBack := ⟨rfl, rfl⟩
  have hafter : ∀ x ∈ after.floats, x.isFinite = true ∧ x.ReadsBack :=
    tree_outcomeFrom (p := fun e => ∀ x ∈ e.floats, x.isFinite = true ∧ x.ReadsBack)
      (fun _ he => forall_mem_floats_afterPass hzero he) hfloats _ _ _
  exact ⟨parse?_compact hafter, parse?_pretty hafter⟩

/-- The text of an optimized tree, in either layout, is read as that tree if it is not nested beyond
    the limit, and is not read otherwise. It is not beyond the limit if the tree has room. -/
theorem optimized_tree_is_read {text : String} {tree : Expression}
    (htext : parse? text = some tree)
    (hreads : ∀ x ∈ tree.floats, x.isFinite = true → x.ReadsBack) (settings : Settings) :
    ∃ o, optimize settings tree = .ok o ∧
      parse? o.tree.toJson.compact =
        (if o.tree.toJson.depth ≤ Json.depthLimit then some o.tree else none) ∧
      parse? o.tree.toJson.pretty =
        (if o.tree.toJson.depth ≤ Json.depthLimit then some o.tree else none) ∧
      o.tree.toJson.depth ≤ tree.room := by
  have hfloats : ∀ x ∈ tree.floats, x.isFinite = true ∧ x.ReadsBack := by
    intro x hx
    have hfinite := isFinite_of_parse? htext x hx
    exact ⟨hfinite, hreads x hx hfinite⟩
  obtain ⟨hcompact, hpretty⟩ := parse?_outcome hfloats settings
  exact ⟨tree.outcome settings, optimize_eq settings tree, hcompact, hpretty,
    depth_outcome_le settings tree⟩

/-- A fallback that is kept for its effects. -/
theorem fallback_tree_is_read :
    let here : Location := ⟨"m.py", 1⟩
    let fallback := call here (var here "f") (constant here (.float ⟨0x4004000000000000⟩))
      (tuple here [])
    let tree := getattr here (var here "x") (constant here (.str "foo")) (some fallback)
    parse? tree.toJson.compact = some tree ∧
      ∃ o, optimize .standard tree = .ok o ∧ o.tree ≠ tree ∧
        parse? o.tree.toJson.compact = some o.tree ∧
        parse? o.tree.toJson.pretty = some o.tree := by
  intro here fallback tree
  have hfloats : tree.floats = [⟨0x4004000000000000⟩] := by
    simp [tree, fallback, floats, nodes_eq, children, constant?, Constant.floats]
  have hreads : ∀ x ∈ tree.floats, x.isFinite = true ∧ x.ReadsBack := by
    rw [hfloats, List.forall_mem_singleton]
    exact ⟨rfl, readsBack_five_halves⟩
  have htext : parse? tree.toJson.compact = some tree :=
    (parse?_compact hreads).trans (if_pos (by decide))
  obtain ⟨o, ho, hcompact, hpretty, hdepth⟩ :=
    optimized_tree_is_read htext (fun x hx _ => (hreads x hx).2) .standard
  have hroom : tree.room ≤ Json.depthLimit := by
    decide
  rw [if_pos (Nat.le_trans hdepth hroom)] at hcompact hpretty
  refine ⟨htext, o, ho, ?_, hcompact, hpretty⟩
  intro heq
  cases ho
  exact absurd (congrArg kind heq) (of_decide_eq_true rfl)

/-! ## A tree without room -/

/-- Lookups on the result of lookups, and so on down to a variable. -/
def lookups (location : Location) : Nat → Expression
  | 0 => var location "x"
  | n + 1 => attributeLookup location (lookups location n) "a"

section Lookups

variable (location : Location) (n : Nat)

theorem depth_toJson_lookups : (lookups location n).toJson.depth = n + 2 := by
  induction n with
  | zero => rfl
  | succ n ih =>
      simp only [lookups, toJson, depth_recordOf, Json.depthOfMembers, Json.depth, ih]
      omega

theorem forall_mem_floats_lookups {p : Binary64 → Prop} :
    ∀ x ∈ (lookups location n).floats, p x := by
  induction n with
  | zero => exact forall_mem_floats_of_children rfl (List.forall_mem_nil _)
  | succ n ih => exact forall_mem_floats_of_children rfl (List.forall_mem_singleton.2 ih)

theorem normal_lookups : (lookups location n).Normal := by
  induction n with
  | zero => exact normal_iff.2 ⟨trivial, List.forall_mem_nil _⟩
  | succ n ih =>
      refine normal_iff.2 ⟨⟨?_, fun place value hsource => ?_⟩, List.forall_mem_singleton.2 ih⟩
      · cases n <;> rfl
      · cases n <;> cases hsource

/-- A lookup through the builtin with lookups as its fallback. -/
def withLookups : Expression :=
  getattr location (var location "x") (constant location (.str "foo"))
    (some (lookups location (n + 1)))

theorem depth_toJson_withLookups : (withLookups location n).toJson.depth = n + 4 := by
  simp only [withLookups, toJson, depth_recordOf, Json.depthOfMembers, Json.depth,
    depth_toJson_lookups, Constant.toJson]
  omega

theorem forall_mem_floats_withLookups {p : Binary64 → Prop} :
    ∀ x ∈ (withLookups location n).floats, p x := by
  refine forall_mem_floats_of_children rfl ?_
  simp only [withLookups, children, Option.toList, List.forall_mem_cons, floats_constant]
  exact ⟨forall_mem_floats_of_children rfl (List.forall_mem_nil _), List.forall_mem_nil _,
    forall_mem_floats_lookups location (n + 1), List.forall_mem_nil _⟩

/-- Its fallback gets into the list of a node for effects, and there one level deeper. -/
theorem tree_outcome_withLookups :
    ((withLookups location n).outcome .standard).tree =
      sideEffects location [lookups location (n + 1)]
        (attributeLookup location (var location "x") "foo") := by
  have hvar : (var location "x").Normal := normal_lookups location 0
  have hlookups := normal_lookups location (n + 1)
  have hname := normal_constant location (.str "foo")
  have hchildren : (withLookups location n).overChildren afterPass = withLookups location n := by
    refine overChildren_eq_self fun c hc => afterPass_of_normal ?_
    simp only [withLookups, children, Option.toList, List.mem_cons, List.not_mem_nil, or_false]
      at hc
    rcases hc with rfl | rfl | rfl
    · exact hvar
    · exact hname
    · exact hlookups
  have hafter : (withLookups location n).afterPass =
      sideEffects location [lookups location (n + 1)]
        (attributeLookup location (var location "x") "foo") := by
    rw [afterPass_eq, hchildren]
    rfl
  have hlookup : (attributeLookup location (var location "x") "foo").Normal := by
    refine normal_iff.2 ⟨⟨rfl, fun place value hsource => ?_⟩, List.forall_mem_singleton.2 hvar⟩
    cases hsource
  have hnormal : (withLookups location n).afterPass.Normal := by
    rw [hafter]
    refine normal_iff.2 ⟨⟨List.cons_ne_nil _ _, List.forall_mem_singleton.2 ⟨rfl, rfl⟩⟩, ?_⟩
    exact List.forall_mem_cons.2 ⟨hlookups, List.forall_mem_singleton.2 hlookup⟩
  rw [tree_outcome_of_normal_afterPass hnormal (by decide), hafter]

theorem depth_tree_outcome_withLookups :
    ((withLookups location n).outcome .standard).tree.toJson.depth = n + 5 := by
  simp only [tree_outcome_withLookups, toJson, listToJson, depth_recordOf, Json.depthOfMembers,
    Json.depth, Json.depthOfItems, depth_toJson_lookups]
  omega

end Lookups

/-- A tree that is nested up to the limit is read, and its optimized tree is not. -/
theorem optimized_tree_is_refused :
    let tree := withLookups ⟨"m.py", 1⟩ 123
    parse? tree.toJson.compact = some tree ∧
      ∃ o, optimize .standard tree = .ok o ∧
        parse? o.tree.toJson.compact = none ∧ parse? o.tree.toJson.pretty = none := by
  intro tree
  have hfloats : ∀ x ∈ tree.floats, x.isFinite = true ∧ x.ReadsBack :=
    forall_mem_floats_withLookups _ _
  have hdepth : tree.toJson.depth ≤ Json.depthLimit :=
    Nat.le_of_eq (depth_toJson_withLookups ..)
  have hafter : ¬(tree.outcome .standard).tree.toJson.depth ≤ Json.depthLimit := by
    rw [depth_tree_outcome_withLookups]
    decide
  obtain ⟨hcompact, hpretty⟩ := parse?_outcome hfloats .standard
  rw [if_neg hafter] at hcompact hpretty
  exact ⟨(parse?_compact hfloats).trans (if_pos hdepth), tree.outcome .standard,
    optimize_eq .standard tree, hcompact, hpretty⟩

end Expression

end AttributeOptimizer
