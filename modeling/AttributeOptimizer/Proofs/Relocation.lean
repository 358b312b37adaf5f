import AttributeOptimizer.Proofs.Likeness
import AttributeOptimizer.Proofs.Passes

set_option autoImplicit false

/-! # Relocated trees

`Expression.relocate` moves every node of a tree to one place and keeps the skeleton of the tree,
which is all there is to say of it (`Expression.eq_of_skeleton_eq`).

Every rule that applies to a node applies to the relocated node, with the relocated replacement
(`Rewrites.relocate`), so that relocating commutes with an attempt, with a pass and with a run. Of
alike trees the same could be said only up to likeness, and nothing at all of a tree with a NaN,
which is not like its relocated self. -/

namespace AttributeOptimizer

namespace Expression

variable (place : Location)

/-! ## The nodes of a relocated tree -/

@[simp] theorem relocate_getattr (location : Location) (source selector : Expression)
    (fallback : Option Expression) :
    (getattr location source selector fallback).relocate place =
      getattr place (source.relocate place) (selector.relocate place)
        (fallback.map (relocate place)) := by
  cases fallback <;> simp [relocate]

@[simp] theorem relocate_sideEffects (location : Location) (effects : List Expression)
    (value : Expression) :
    (sideEffects location effects value).relocate place =
      sideEffects place (effects.map (relocate place)) (value.relocate place) := by
  simp [relocate, relocateAll_eq_map]

@[simp] theorem relocate_tuple (location : Location) (elements : List Expression) :
    (tuple location elements).relocate place = tuple place (elements.map (relocate place)) := by
  simp [relocate, relocateAll_eq_map]

theorem location_of_mem_nodes_relocate {e : Expression} :
    ∀ n ∈ (e.relocate place).nodes, n.location = place := by
  induction e using childInduction with
  | node e ih =>
      rw [forall_mem_nodes, children_relocate, List.forall_mem_map]
      exact ⟨location_relocate place e, ih⟩

@[simp] theorem skeleton_relocate (e : Expression) :
    (e.relocate place).skeleton = e.skeleton := by
  induction e using childInduction with
  | node e ih =>
      rw [skeleton_eq_iff, children_relocate, List.map_map]
      exact ⟨label_relocate place e, List.map_congr_left ih⟩

/-- Only the last of two relocations matters. -/
theorem relocate_relocate (e : Expression) (place' : Location) :
    (e.relocate place).relocate place' = e.relocate place' :=
  eq_of_skeleton_eq (by simp) (location_of_mem_nodes_relocate place')
    (location_of_mem_nodes_relocate place')

/-- A function that commutes with relocating commutes with it below a node. -/
theorem overChildren_relocate {f : Expression → Expression} {e : Expression}
    (h : ∀ c ∈ e.children, f (c.relocate place) = (f c).relocate place) :
    (e.relocate place).overChildren f = (e.overChildren f).relocate place := by
  refine eq_of_label_eq ?_ ?_ ?_
  · rw [overChildren, label_withChildren, label_relocate, label_relocate, overChildren,
      label_withChildren]
  · rw [location_overChildren, location_relocate, location_relocate]
  · rw [children_overChildren, children_relocate, children_relocate, children_overChildren,
      List.map_map, List.map_map]
    exact List.map_congr_left h

/-! ## Questions that relocating does not change -/

@[simp] theorem constant?_relocate (e : Expression) :
    (e.relocate place).constant? = e.constant? := by
  cases e <;> simp [relocate, constant?]

@[simp] theorem string?_relocate (e : Expression) : (e.relocate place).string? = e.string? := by
  rw [string?, string?, constant?_relocate]

@[simp] theorem isConstant_relocate (e : Expression) :
    (e.relocate place).isConstant = e.isConstant := by
  cases e <;> simp [relocate, isConstant]

@[simp] theorem raises_relocate (e : Expression) : (e.relocate place).raises = e.raises := by
  induction e using childInduction with
  | node e ih =>
      cases e with
      | sideEffects location effects value =>
          have heffects : (effects.map (relocate place)).any raises = effects.any raises := by
            rw [List.any_map, Bool.eq_iff_iff, List.any_eq_true, List.any_eq_true]
            refine exists_congr fun c => and_congr_right fun hc => ?_
            rw [Function.comp_apply, ih c (effect_mem_children hc ..)]
          rw [relocate_sideEffects, raises_sideEffects, raises_sideEffects, heffects,
            ih value (value_mem_children ..)]
      | _ => simp [relocate, raises, alwaysRaises]

theorem effects_relocate (e : Expression) :
    (e.relocate place).effects = e.effects.map (relocate place) := by
  induction e using childInduction with
  | node e ih =>
      rw [effects_eq, effects_eq e, kind_relocate, children_relocate, List.flatMap_map]
      split
      · rfl
      · rw [List.map_flatMap, List.flatMap_congr ih]

@[simp] theorem mayHaveEffects_relocate (e : Expression) :
    (e.relocate place).mayHaveEffects = e.mayHaveEffects := by
  rw [Bool.eq_iff_iff, ← Bool.not_eq_false, ← Bool.not_eq_false, ← effects_eq_nil_iff,
    ← effects_eq_nil_iff, effects_relocate, List.map_eq_nil_iff]

theorem filter_mayHaveEffects_relocate (es : List Expression) :
    (es.map (relocate place)).filter mayHaveEffects =
      (es.filter mayHaveEffects).map (relocate place) := by
  rw [List.filter_map]
  simp [Function.comp_def]

theorem allEffects_relocate (es : List Expression) :
    allEffects (es.map (relocate place)) = (allEffects es).map (relocate place) := by
  simp only [allEffects_eq_flatMap, List.flatMap_map, List.map_flatMap, effects_relocate]

theorem relocate_after (node : Expression) (dropped : List Expression) (location : Location) :
    (node.after dropped location).relocate place =
      (node.relocate place).after (dropped.map (relocate place)) place := by
  simp only [after, flatMap_effects_filter, allEffects_relocate]
  cases allEffects dropped with
  | nil => rfl
  | cons first rest => cases node <;> simp [relocate, relocateAll_eq_map]

/-! ## One attempt -/

theorem Terminal.relocate {e : Expression} (h : e.Terminal) : (e.relocate place).Terminal := by
  cases e with
  | attributeLookup location source name =>
      refine ⟨(raises_relocate place source).trans h.1, ?_⟩
      intro place' value hsource
      cases source with
      | constant place'' value' =>
          obtain ⟨-, rfl⟩ := constant.inj hsource
          exact h.2 _ _ rfl
      | _ => simp [Expression.relocate] at hsource
  | specialLookup location source name => exact (raises_relocate place source).trans h
  | getattr location source selector fallback =>
      rw [relocate_getattr, Terminal, string?_relocate, mayHaveEffects_relocate]
      exact h
  | hasattr location source selector =>
      rw [Expression.relocate, Terminal, isConstant_relocate, string?_relocate]
      exact h
  | call location called args kw =>
      rw [Expression.relocate, Terminal, raises_relocate, raises_relocate, raises_relocate,
        isConstant_relocate]
      exact h
  | sideEffects location effects value =>
      rw [relocate_sideEffects, Terminal, Ne, List.map_eq_nil_iff, List.forall_mem_map]
      simpa [Terminal] using h
  | tuple location elements =>
      rw [relocate_tuple, Terminal, List.forall_mem_map]
      simpa [Terminal] using h
  | _ => simp [Expression.relocate, Terminal]

end Expression

open Expression in
/-- A rule that applies to a node applies to the relocated node, for the same reason. -/
theorem Rewrites.relocate {node replacement : Expression} {tag : ChangeTag} {description : String}
    (h : Rewrites node replacement tag description) (place : Location) :
    Rewrites (node.relocate place) (replacement.relocate place) tag description := by
  cases h with
  | lookupRaises hraises => exact .lookupRaises (by simpa using hraises)
  | lookupFolds hfolds => exact .lookupFolds hfolds
  | lookupFails hfails => exact .lookupFails hfails
  | specialLookupRaises hraises => exact .specialLookupRaises (by simpa using hraises)
  | @getattr _ _ source name fallback heffects =>
      rw [relocate_getattr, relocate_after, ← Option.toList_map]
      exact .getattr (by simp [effects_relocate, heffects])
  | hasattr => exact .hasattr
  | calledRaises hraises => exact .calledRaises (by simpa using hraises)
  | argsRaise hcalled hargs =>
      rw [relocate_after]
      exact .argsRaise (by simpa using hcalled) (by simpa using hargs)
  | kwRaises hcalled hargs hkw =>
      rw [relocate_after]
      exact .kwRaises (by simpa using hcalled) (by simpa using hargs) (by simpa using hkw)
  | constantCalled hargs hkw =>
      rw [relocate_after]
      exact .constantCalled (by simpa using hargs) (by simpa using hkw)
  | effectRaises hbefore hraises =>
      rw [relocate_sideEffects, relocate_after, List.map_append, List.map_cons]
      exact .effectRaises (List.forall_mem_map.2 (by simpa using hbefore)) (by simpa using hraises)
  | effectsRemoved hidle =>
      rw [relocate_sideEffects]
      exact .effectsRemoved (List.forall_mem_map.2 (by simpa using hidle))
  | effectsFiltered hquiet hkept hidle =>
      rw [relocate_sideEffects, relocate_sideEffects, ← filter_mayHaveEffects_relocate]
      refine .effectsFiltered (List.forall_mem_map.2 (by simpa using hquiet)) ?_ ?_
      · rw [filter_mayHaveEffects_relocate, Ne, List.map_eq_nil_iff]
        exact hkept
      · obtain ⟨e, he, hidle⟩ := hidle
        exact ⟨_, List.mem_map_of_mem he, by simpa using hidle⟩
  | elementRaises hbefore hraises =>
      rw [relocate_tuple, relocate_after, List.map_append, List.map_cons]
      exact .elementRaises (List.forall_mem_map.2 (by simpa using hbefore)) (by simpa using hraises)
  | tupleFolds hvalues =>
      rw [relocate_tuple]
      exact .tupleFolds (by simpa [Function.comp_def] using hvalues)

namespace Expression

variable (place : Location)

/-- An attempt at a relocated node gives the relocated answer. -/
theorem answer_relocate (node : Expression) :
    (node.relocate place).answer = node.answer.mapNode (relocate place) := by
  cases h : node.answer with
  | unchanged => exact answer_eq_unchanged_iff.2 ((answer_eq_unchanged_iff.1 h).relocate place)
  | changed replacement tag description =>
      exact answer_eq_changed_iff.2 ((answer_eq_changed_iff.1 h).relocate place)

theorem afterAttempt_relocate (node : Expression) :
    (node.relocate place).afterAttempt = node.afterAttempt.relocate place := by
  rw [afterAttempt, afterAttempt, answer_relocate]
  cases node.answer <;> rfl

theorem change?_relocate (node : Expression) :
    (node.relocate place).change? = node.change?.map fun c => (c.1, place, c.2.2) := by
  rw [change?, change?, answer_relocate, location_relocate]
  cases node.answer <;> rfl

/-! ## Passes and runs -/

theorem afterPass_relocate (e : Expression) :
    (e.relocate place).afterPass = e.afterPass.relocate place := by
  induction e using childInduction with
  | node e ih =>
      rw [afterPass_eq, overChildren_relocate place ih, afterAttempt_relocate, ← afterPass_eq]

/-- A pass over a relocated tree reports the same changes, all at the new place. -/
theorem changeLog_relocate (e : Expression) :
    (e.relocate place).changeLog = e.changeLog.map fun c => (c.1, place, c.2.2) := by
  induction e using childInduction with
  | node e ih =>
      rw [changeLog_eq, changeLog_eq, children_relocate, List.flatMap_map,
        overChildren_relocate place fun c _ => afterPass_relocate place c, change?_relocate,
        List.map_append, List.map_flatMap, Option.toList_map, List.flatMap_congr ih]

end Expression

/-- An outcome with its tree and its records relocated. -/
def Outcome.relocate (place : Location) (o : Outcome) : Outcome :=
  { o with
    tree := o.tree.relocate place
    changes := o.changes.map fun r => { r with location := place } }

namespace Expression

variable (place : Location)

theorem outcomeFrom_relocate (recording : Bool) (done left : Nat) (tree : Expression) :
    outcomeFrom recording done left (tree.relocate place) =
      (outcomeFrom recording done left tree).relocate place := by
  induction left generalizing done tree with
  | zero => rfl
  | succ left ih =>
      have hrecords : (tree.relocate place).changeLog.map (ChangeRecord.ofChange (done + 1)) =
          (tree.changeLog.map (ChangeRecord.ofChange (done + 1))).map
            fun r => { r with location := place } := by
        rw [changeLog_relocate, List.map_map, List.map_map]
        rfl
      have hquiet : (tree.relocate place).changeLog = [] ↔ tree.changeLog = [] := by
        rw [changeLog_relocate, List.map_eq_nil_iff]
      rw [outcomeFrom, outcomeFrom, hrecords, afterPass_relocate, ih]
      by_cases hnone : tree.changeLog = []
      · rw [if_pos hnone, if_pos (hquiet.2 hnone)]
        cases recording <;> rfl
      · rw [if_neg hnone, if_neg (mt hquiet.1 hnone)]
        cases recording <;> simp [Outcome.relocate]

/-- A relocated tree stands at its place in all its nodes, has the skeleton of the tree, and is like
    the tree exactly if that contains no NaN. Relocated again it is what the tree is when relocated
    there at once. Optimizing it takes as many passes and says the same of the fixpoint, leaves what
    optimizing the tree leaves, relocated, and records the same changes, all at the new place. -/
theorem relocation_commutes (tree : Expression) (place : Location) :
    (∀ n ∈ (tree.relocate place).nodes, n.location = place) ∧
    (tree.relocate place).skeleton = tree.skeleton ∧
    ((tree.relocate place).alike tree = true ↔ ∀ x ∈ tree.floats, x.isNaN = false) ∧
    (tree.alike (tree.relocate place) = true ↔ ∀ x ∈ tree.floats, x.isNaN = false) ∧
    (∀ place', (tree.relocate place).relocate place' = tree.relocate place') ∧
    ∀ settings, ∃ o o', optimize settings tree = .ok o ∧
      optimize settings (tree.relocate place) = .ok o' ∧
      o'.tree = o.tree.relocate place ∧ o'.passes = o.passes ∧
      o'.reachedFixpoint = o.reachedFixpoint ∧
      o'.changes = o.changes.map fun r => { r with location := place } := by
  have halike : Alike (tree.relocate place) tree ↔ ∀ x ∈ tree.floats, x.isNaN = false := by
    rw [alike_iff_matches, skeleton_relocate, ← alike_iff_matches, Alike.self_iff]
  refine ⟨location_of_mem_nodes_relocate place, skeleton_relocate place tree, ?_, ?_,
    relocate_relocate place tree, ?_⟩
  · rw [Alike.alike_iff, halike]
  · rw [Alike.alike_iff, ← halike]
    exact ⟨Alike.symm, Alike.symm⟩
  · intro settings
    refine ⟨_, _, optimize_eq settings tree, optimize_eq settings _, ?_⟩
    rw [outcome, outcomeFrom_relocate]
    exact ⟨rfl, rfl, rfl, rfl⟩

/-- A tree with a NaN is not like its relocated self, and yet the two are optimized in the same
    three passes. -/
theorem nan_lookup_is_relocated :
    let here : Location := ⟨"m.py", 1⟩
    let there : Location := ⟨"n.py", 2⟩
    let tree := getattr here (constant here (.float .nan)) (constant here (.str "real")) none
    (tree.relocate there).alike tree = false ∧
    ∃ o o', optimize .standard tree = .ok o ∧ optimize .standard (tree.relocate there) = .ok o' ∧
      o.tree = constant here (.float .nan) ∧ o'.tree = constant there (.float .nan) ∧
      o'.passes = 3 := by
  intro here there tree
  obtain ⟨-, -, halike, -, -, hruns⟩ := relocation_commutes tree there
  have hnan : Binary64.nan ∈ tree.floats := by
    simp [tree, floats, nodes_eq, children, constant?, Constant.floats]
  have hunlike : (tree.relocate there).alike tree = false := by
    rw [← Bool.not_eq_true, halike]
    intro hnone
    exact absurd (hnone _ hnan) (by decide)
  obtain ⟨o, o', ho, ho', htree, hpasses, -, -⟩ := hruns .standard
  have hfolded : o.tree = constant here (.float .nan) := by
    cases ho
    rfl
  have hthree : o.passes = 3 := by
    cases ho
    rfl
  refine ⟨hunlike, o, o', ho, ho', hfolded, ?_, hpasses.trans hthree⟩
  rw [htree, hfolded]
  rfl

end Expression

end AttributeOptimizer
