import AttributeOptimizer.Proofs.Alike
import AttributeOptimizer.Proofs.Passes

set_option autoImplicit false

/-! # Locations do not influence a run

Attempts at two alike nodes give the same answer, up to the locations in what they put in the place
of the nodes (`Alike.simplify`). Passes over alike trees therefore go in lockstep: they make the
same changes for the same reasons and leave alike trees (`Alike.afterPass`, `Alike.changeLog`), and
so do whole runs. -/

namespace AttributeOptimizer

open Expression

/-- Two answers that are the same up to locations. -/
inductive AlikeAnswers : Except Defect Simplification → Except Defect Simplification → Prop where
  | unchanged : AlikeAnswers (.ok .unchanged) (.ok .unchanged)
  | changed {node node' : Expression} {tag : ChangeTag} {description : String} :
      Alike node node' →
      AlikeAnswers (.ok (.changed node tag description)) (.ok (.changed node' tag description))

namespace Alike

/-! ## The functions of the rules -/

theorem string?_eq {a b : Expression} (h : Alike a b) : a.string? = b.string? := by
  cases h with
  | constant hvalue => exact Constant.string?_eq_of_equal hvalue
  | _ => rfl

theorem simplifyConstantLookup {value value' : Constant} (h : value.equal value' = true)
    (location location' : Location) (name : String) :
    AlikeAnswers (simplifyConstantLookup value location name)
      (simplifyConstantLookup value' location' name) := by
  have hlookup := Constant.lookupAttribute_of_equal h name
  simp only [Expression.simplifyConstantLookup]
  generalize value.lookupAttribute name = found, value'.lookupAttribute name = found' at hlookup ⊢
  cases hlookup with
  | value hfound => exact .changed (.constant hfound)
  | noValue => exact .unchanged
  | error => exact .changed .raise

theorem simplifyLookup {location location' : Location} {source source' : Expression}
    (h : Alike source source') (name : String) :
    AlikeAnswers (simplifyLookup (.attributeLookup location source name) source name)
      (simplifyLookup (.attributeLookup location' source' name) source' name) := by
  simp only [Expression.simplifyLookup, h.raises_eq]
  split
  · exact .changed h
  · cases h with
    | constant hvalue => exact simplifyConstantLookup hvalue location location' name
    | _ => exact .unchanged

theorem simplifySpecialLookup {source source' : Expression} (h : Alike source source') :
    AlikeAnswers (simplifySpecialLookup source) (simplifySpecialLookup source') := by
  simp only [Expression.simplifySpecialLookup, h.raises_eq]
  split
  · exact .changed h
  · exact .unchanged

theorem isEmpty_eq {as bs : List Expression} (h : List.Forall₂ Alike as bs) :
    as.isEmpty = bs.isEmpty := by
  cases h <;> rfl

theorem simplifyGetattr {location location' : Location}
    {source source' selector selector' : Expression} {fallback fallback' : Option Expression}
    (hsource : Alike source source') (hselector : Alike selector selector')
    (hfallback : Option.Rel Alike fallback fallback') :
    AlikeAnswers (simplifyGetattr location source selector fallback)
      (simplifyGetattr location' source' selector' fallback') := by
  have hdropped : List.Forall₂ Alike ((fallback.map Expression.effects).getD [])
      ((fallback'.map Expression.effects).getD []) := by
    cases hfallback with
    | none => exact .nil
    | some h => exact h.effects
  simp only [Expression.simplifyGetattr, hselector.string?_eq, isEmpty_eq hsource.effects]
  split
  · exact .unchanged
  · split
    · exact .changed ((attributeLookup hsource).after
        (List.rel_append hselector.effects hdropped) location location')
    · exact .unchanged

theorem simplifyHasattr {location location' : Location}
    {source source' selector selector' : Expression} (hsource : Alike source source')
    (hselector : Alike selector selector') :
    AlikeAnswers (simplifyHasattr location source selector)
      (simplifyHasattr location' source' selector') := by
  have hreceiver := hsource
  cases hsource with
  | @constant place place' value value' hvalue =>
      have hfolded : ∀ name, Alike (.constant location (.bool (value.hasAttribute name)))
          (.constant location' (.bool (value'.hasAttribute name))) := by
        intro name
        rw [Constant.hasAttribute_eq_of_equal hvalue]
        exact .constant (beq_self_eq_true _)
      cases hname : selector'.string? with
      | none =>
          simp only [Expression.simplifyHasattr, hselector.string?_eq, hname]
          exact .unchanged
      | some name =>
          simp only [Expression.simplifyHasattr, hselector.string?_eq, hname]
          exact .changed (((hfolded name).inPlaceOf hselector).inPlaceOf hreceiver)
  | _ => exact .unchanged

theorem simplifyCall {location location' : Location} {called called' args args' kw kw' : Expression}
    (hcalled : Alike called called') (hargs : Alike args args') (hkw : Alike kw kw') :
    AlikeAnswers (simplifyCall (.call location called args kw) called args kw)
      (simplifyCall (.call location' called' args' kw') called' args' kw') := by
  simp only [Expression.simplifyCall, hcalled.raises_eq, hargs.raises_eq, hkw.raises_eq]
  split
  · exact .changed hcalled
  split
  · exact .changed (hargs.after (.cons hcalled .nil) location location')
  split
  · exact .changed (hkw.after (.cons hcalled (.cons hargs .nil)) location location')
  cases hcalled with
  | constant hvalue =>
      simp only [simplifyCallOf, simplifyConstantCall, Constant.typeName_eq_of_equal hvalue]
      exact .changed (raise.after (List.rel_append hargs.effects hkw.effects) location location')
  | _ => exact .unchanged

/-- Alike lists are split at the same place, or neither has an expression that raises. -/
theorem splitAtRaise?_cases {as bs : List Expression} (h : List.Forall₂ Alike as bs) :
    splitAtRaise? as = none ∧ splitAtRaise? bs = none ∨
      ∃ before raising before' raising', splitAtRaise? as = some (before, raising) ∧
        splitAtRaise? bs = some (before', raising') ∧ List.Forall₂ Alike before before' ∧
        Alike raising raising' := by
  induction h with
  | nil => exact Or.inl ⟨rfl, rfl⟩
  | @cons a b as bs hab _ ih =>
      simp only [splitAtRaise?, hab.raises_eq]
      split
      · exact Or.inr ⟨_, _, _, _, rfl, rfl, .nil, hab⟩
      · rcases ih with ⟨hnone, hnone'⟩ |
          ⟨before, raising, before', raising', hsome, hsome', hbefore, hraising⟩
        · exact Or.inl (by simp [hnone, hnone'])
        · exact Or.inr ⟨a :: before, raising, b :: before', raising', by simp [hsome],
            by simp [hsome'], .cons hab hbefore, hraising⟩

theorem filter_mayHaveEffects {as bs : List Expression} (h : List.Forall₂ Alike as bs) :
    List.Forall₂ Alike (as.filter mayHaveEffects) (bs.filter mayHaveEffects) := by
  induction h with
  | nil => exact .nil
  | cons hab _ ih =>
      rw [List.filter_cons, List.filter_cons, hab.mayHaveEffects_eq]
      split
      · exact .cons hab ih
      · exact ih

theorem simplifySideEffects {location location' : Location} {effects effects' : List Expression}
    {value value' : Expression} (heffects : List.Forall₂ Alike effects effects')
    (hvalue : Alike value value') :
    AlikeAnswers (simplifySideEffects location effects value)
      (simplifySideEffects location' effects' value') := by
  have hkept := filter_mayHaveEffects heffects
  unfold Expression.simplifySideEffects
  rcases splitAtRaise?_cases heffects with ⟨hnone, hnone'⟩ |
    ⟨before, raising, before', raising', hsome, hsome', hbefore, hraising⟩
  · simp only [hnone, hnone', isEmpty_eq hkept, hkept.length_eq, heffects.length_eq]
    split
    · exact .changed hvalue
    split
    · exact .unchanged
    · exact .changed (.sideEffects hkept hvalue)
  · rw [hsome, hsome']
    exact .changed (hraising.after hbefore location location')

/-- Where all members are constants, so are those of an alike list, and their values are equal. -/
theorem mapM_constantOperand {as bs : List Expression} (h : List.Forall₂ Alike as bs)
    (hconstant : as.all Expression.isConstant = true) :
    ∃ values values', as.mapM constantOperand = .ok values ∧ bs.mapM constantOperand = .ok values' ∧
      Constant.equalElements values values' = true := by
  induction h with
  | nil => exact ⟨[], [], rfl, rfl, rfl⟩
  | cons hab _ ih =>
      rw [List.all_cons, Bool.and_eq_true] at hconstant
      obtain ⟨values, values', hvalues, hvalues', hequal⟩ := ih hconstant.2
      cases hab with
      | constant hvalue =>
          refine ⟨_ :: values, _ :: values', ?_, ?_, Bool.and_eq_true_iff.2 ⟨hvalue, hequal⟩⟩
          · rw [List.mapM_cons, hvalues]
            rfl
          · rw [List.mapM_cons, hvalues']
            rfl
      | _ => exact Bool.noConfusion hconstant.1

theorem simplifyTuple {location location' : Location} {elements elements' : List Expression}
    (h : List.Forall₂ Alike elements elements') :
    AlikeAnswers (simplifyTuple location elements) (simplifyTuple location' elements') := by
  have hall : elements.all Expression.isConstant = elements'.all Expression.isConstant := by
    rw [List.all_eq_not_any_not, List.all_eq_not_any_not,
      any_eq h fun a _ b hab => by rw [hab.isConstant_eq]]
  unfold Expression.simplifyTuple
  rcases splitAtRaise?_cases h with ⟨hnone, hnone'⟩ |
    ⟨before, raising, before', raising', hsome, hsome', hbefore, hraising⟩
  · simp only [hnone, hnone', ← hall]
    split
    · next hconstant =>
        obtain ⟨values, values', hvalues, hvalues', hequal⟩ := mapM_constantOperand h hconstant
        rw [hvalues, hvalues']
        exact .changed (.constant hequal)
    · exact .unchanged
  · rw [hsome, hsome']
    exact .changed (hraising.after hbefore location location')

/-! ## One attempt -/

theorem simplify {a b : Expression} (h : Alike a b) : AlikeAnswers a.simplify b.simplify := by
  cases h with
  | attributeLookup hsource => exact simplifyLookup hsource _
  | specialLookup hsource => exact simplifySpecialLookup hsource
  | getattr hsource hselector hfallback => exact simplifyGetattr hsource hselector hfallback
  | hasattr hsource hselector => exact simplifyHasattr hsource hselector
  | call hcalled hargs hkw => exact simplifyCall hcalled hargs hkw
  | sideEffects heffects hvalue => exact simplifySideEffects heffects hvalue
  | tuple helements => exact simplifyTuple helements
  | _ => exact .unchanged

/-- What attempts leave in the place of alike nodes is alike, and the changes are the same but for
    the locations they are reported at. -/
theorem attempt {a b : Expression} (h : Alike a b) :
    Alike a.afterAttempt b.afterAttempt ∧
      a.change?.map (fun c => (c.1, c.2.2)) = b.change?.map (fun c => (c.1, c.2.2)) := by
  have hanswers := h.simplify
  rw [simplify_eq_answer, simplify_eq_answer] at hanswers
  unfold afterAttempt Expression.change?
  generalize a.answer = answer, b.answer = answer' at hanswers ⊢
  cases hanswers with
  | unchanged => exact ⟨h, rfl⟩
  | changed hnode => exact ⟨hnode, rfl⟩

/-! ## Passes -/

theorem map {as bs : List Expression} {f : Expression → Expression}
    (h : List.Forall₂ Alike as bs) (hf : ∀ a ∈ as, ∀ b, Alike a b → Alike (f a) (f b)) :
    List.Forall₂ Alike (as.map f) (bs.map f) := by
  induction h with
  | nil => exact .nil
  | cons hab _ ih =>
      obtain ⟨ha, has⟩ := List.forall_mem_cons.1 hf
      exact .cons (ha _ hab) (ih has)

theorem overChildren {a b : Expression} {f : Expression → Expression} (h : Alike a b)
    (hf : ∀ c ∈ a.children, ∀ d, Alike c d → Alike (f c) (f d)) :
    Alike (a.overChildren f) (b.overChildren f) := by
  cases h with
  | constant hvalue => exact .constant hvalue
  | var => exact .var
  | raise => exact .raise
  | sideEffects heffects hvalue =>
      rw [overChildren_sideEffects, overChildren_sideEffects]
      exact .sideEffects (map heffects fun c hc => hf c (effect_mem_children hc ..))
        (hf _ (value_mem_children ..) _ hvalue)
  | tuple helements => exact .tuple (map helements hf)
  | getattr hsource hselector hfallback =>
      rw [overChildren_getattr, overChildren_getattr]
      cases hfallback with
      | none =>
          simp only [Expression.children, Option.toList, List.forall_mem_cons] at hf
          exact .getattr (hf.1 _ hsource) (hf.2.1 _ hselector) .none
      | some hfallback =>
          simp only [Expression.children, Option.toList, List.forall_mem_cons] at hf
          exact .getattr (hf.1 _ hsource) (hf.2.1 _ hselector) (.some (hf.2.2.1 _ hfallback))
  | attributeLookup hsource =>
      simp only [Expression.children, List.forall_mem_cons] at hf
      exact .attributeLookup (hf.1 _ hsource)
  | specialLookup hsource =>
      simp only [Expression.children, List.forall_mem_cons] at hf
      exact .specialLookup (hf.1 _ hsource)
  | setattr hsource hselector hvalue =>
      simp only [Expression.children, List.forall_mem_cons] at hf
      exact .setattr (hf.1 _ hsource) (hf.2.1 _ hselector) (hf.2.2.1 _ hvalue)
  | hasattr hsource hselector =>
      simp only [Expression.children, List.forall_mem_cons] at hf
      exact .hasattr (hf.1 _ hsource) (hf.2.1 _ hselector)
  | call hcalled hargs hkw =>
      simp only [Expression.children, List.forall_mem_cons] at hf
      exact .call (hf.1 _ hcalled) (hf.2.1 _ hargs) (hf.2.2.1 _ hkw)

theorem afterPass {a b : Expression} (h : Alike a b) : Alike a.afterPass b.afterPass := by
  induction a using childInduction generalizing b with
  | node a ih =>
      rw [afterPass_eq, afterPass_eq]
      exact (h.overChildren fun c hc _ hlike => ih c hc hlike).attempt.1

/-- Passes over alike trees report the same changes at different locations. -/
theorem changeLog {a b : Expression} (h : Alike a b) :
    a.changeLog.map (fun c => (c.1, c.2.2)) = b.changeLog.map (fun c => (c.1, c.2.2)) := by
  induction a using childInduction generalizing b with
  | node a ih =>
      have hnode := (h.overChildren fun c _ _ hlike => hlike.afterPass).attempt.2
      have hbelow := map_eq h.children fun c hc _ hlike => ih c hc hlike
      rw [changeLog_eq, changeLog_eq, List.map_append, List.map_append, List.map_flatMap,
        List.map_flatMap, List.flatMap_def, List.flatMap_def, hbelow, ← Option.toList_map,
        ← Option.toList_map, hnode]

end Alike

/-! ## Runs -/

/-- A change record without its location. -/
def ChangeRecord.unlocated (r : ChangeRecord) : Nat × ChangeTag × String :=
  (r.pass, r.tag, r.message)

/-- Two outcomes are the same up to locations. -/
structure AlikeOutcomes (o o' : Outcome) : Prop where
  passes : o.passes = o'.passes
  reachedFixpoint : o.reachedFixpoint = o'.reachedFixpoint
  changes : o.changes.map ChangeRecord.unlocated = o'.changes.map ChangeRecord.unlocated
  tree : Alike o.tree o'.tree

theorem ChangeRecord.map_unlocated_ofChange (pass : Nat)
    (log : List (ChangeTag × Location × String)) :
    (log.map (ChangeRecord.ofChange pass)).map ChangeRecord.unlocated =
      (log.map fun c => (c.1, c.2.2)).map (pass, ·) := by
  simp [ChangeRecord.unlocated, ChangeRecord.ofChange]

namespace Alike

theorem outcomeFrom {a b : Expression} (h : Alike a b) (recording : Bool) (done left : Nat) :
    AlikeOutcomes (outcomeFrom recording done left a) (outcomeFrom recording done left b) := by
  induction left generalizing a b done with
  | zero => exact ⟨rfl, rfl, rfl, h⟩
  | succ left ih =>
      have hlog := h.changeLog
      have hrecords :
          (if recording then a.changeLog.map (.ofChange (done + 1)) else []).map
              ChangeRecord.unlocated =
            (if recording then b.changeLog.map (.ofChange (done + 1)) else []).map
              ChangeRecord.unlocated := by
        cases recording with
        | false => rfl
        | true => simp only [if_true, ChangeRecord.map_unlocated_ofChange, hlog]
      have hquiet : a.changeLog = [] ↔ b.changeLog = [] := by
        rw [← List.map_eq_nil_iff, hlog, List.map_eq_nil_iff]
      rw [Expression.outcomeFrom, Expression.outcomeFrom]
      by_cases hnone : b.changeLog = []
      · rw [if_pos hnone, if_pos (hquiet.2 hnone)]
        exact ⟨rfl, rfl, hrecords, h.afterPass⟩
      · rw [if_neg hnone, if_neg (mt hquiet.1 hnone)]
        have hlater := ih h.afterPass (done + 1)
        refine ⟨hlater.passes, hlater.reachedFixpoint, ?_, hlater.tree⟩
        rw [List.map_append, List.map_append, hrecords, hlater.changes]

end Alike

namespace Expression

/-- Optimizing trees that are equal in all but their locations succeeds on both, with as many
    passes, the same answer on the fixpoint, the same passes, tags and messages in the records of
    the changes, and trees that are again equal in all but their locations. -/
theorem optimize_alike {a b : Expression} (h : a.alike b = true) (settings : Settings) :
    ∃ o o', optimize settings a = .ok o ∧ optimize settings b = .ok o' ∧
      o.passes = o'.passes ∧ o.reachedFixpoint = o'.reachedFixpoint ∧
      o.changes.map (fun r => (r.pass, r.tag, r.message)) =
        o'.changes.map (fun r => (r.pass, r.tag, r.message)) ∧
      o.tree.alike o'.tree = true := by
  have hrun := (alike_of_alike h).outcomeFrom settings.recordChanges 0 settings.maxPasses
  exact ⟨a.outcome settings, b.outcome settings, optimize_eq settings a, optimize_eq settings b,
    hrun.passes, hrun.reachedFixpoint, hrun.changes, hrun.tree.alike⟩

/-- Two trees at different places, one with a positive and one with a negative zero. -/
theorem zeros_at_two_places :
    let here : Location := ⟨"m.py", 1⟩
    let there : Location := ⟨"n.py", 2⟩
    let a := attributeLookup here (constant here (.float ⟨0⟩)) "real"
    let b := attributeLookup there (constant here (.float ⟨0x8000000000000000⟩)) "real"
    a.alike b = true ∧
    ∃ o o', optimize .standard a = .ok o ∧ optimize .standard b = .ok o' ∧
      o.passes = o'.passes ∧ o.tree.alike o'.tree = true := by
  intro here there a b
  have hzeros : a.alike b = true := by decide
  obtain ⟨o, o', ho, ho', hpasses, -, -, htree⟩ := optimize_alike hzeros .standard
  exact ⟨hzeros, o, o', ho, ho', hpasses, htree⟩

end Expression

end AttributeOptimizer
