import AttributeOptimizer.Simplification.Rules
import AttributeOptimizer.Proofs.KeptEffects

set_option autoImplicit false

/-! # The rules as a relation

`Rewrites` lists the rules, each with the condition under which it applies and the change that it
reports, and `Expression.Terminal` describes the nodes to which none applies, by their shape. An
attempt at a node never fails: it either leaves a terminal node as it is or applies a rule
(`simplify_spec`). What is proved of the optimizer elsewhere is proved of these rules, one case
each. -/

namespace AttributeOptimizer

open Expression

/-- The justification of a change where a computation done at compile time raises. -/
def predicted (description : String) (exception : RaisedException) : String :=
  s!"{description} Predicted to raise {exception.text}."

/-- One rule applied to a node: the replacement, the kind of the change and its justification. -/
inductive Rewrites : Expression → Expression → ChangeTag → String → Prop where
  /-- A lookup on a receiver that raises is its receiver. -/
  | lookupRaises {location : Location} {source : Expression} {name : String} :
      source.raises = true →
      Rewrites (.attributeLookup location source name) source .exceptionPropagated
        "Attribute lookup source raises exception."
  /-- A data attribute of a constant is its value. -/
  | lookupFolds {location place : Location} {value folded : Constant} {name : String} :
      value.lookupAttribute name = .ok (some folded) →
      Rewrites (.attributeLookup location (.constant place value) name)
        (.constant location folded) .constantFolded s!"Attribute '{name}' of constant pre-computed."
  /-- The lookup of an attribute that a constant does not have raises. -/
  | lookupFails {location place : Location} {value : Constant} {name : String}
      {exception : RaisedException} :
      value.lookupAttribute name = .error exception →
      Rewrites (.attributeLookup location (.constant place value) name)
        (.raise location exception) .exceptionPropagated
        (predicted s!"Attribute '{name}' of constant pre-computed." exception)
  /-- A lookup of a reserved name on a receiver that raises is its receiver. -/
  | specialLookupRaises {location : Location} {source : Expression} {name : String} :
      source.raises = true →
      Rewrites (.specialLookup location source name) source .exceptionPropagated
        "Special attribute lookup source raises exception."
  /-- A lookup through the builtin with a literal name, on a receiver without effects, is a plain
      lookup after the effects of the fallback. -/
  | getattr {location place : Location} {source : Expression} {name : String}
      {fallback : Option Expression} :
      source.effects = [] →
      Rewrites (.getattr location source (.constant place (.str name)) fallback)
        ((attributeLookup location source name).after fallback.toList location)
        .simplified s!"getattr with constant attribute '{name}' replaced by attribute lookup"
  /-- A test for an attribute with a literal name, on a constant, is its answer. -/
  | hasattr {location place place' : Location} {value : Constant} {name : String} :
      Rewrites (.hasattr location (.constant place value) (.constant place' (.str name)))
        (.constant location (.bool (value.hasAttribute name))) .constantFolded
        "hasattr pre-computed"
  /-- A call of something that raises is that. -/
  | calledRaises {location : Location} {called args kw : Expression} :
      called.raises = true →
      Rewrites (.call location called args kw) called .exceptionPropagated
        "Called expression raises exception"
  /-- A call whose positional arguments raise is these, after the effects of what is called. -/
  | argsRaise {location : Location} {called args kw : Expression} :
      called.raises = false → args.raises = true →
      Rewrites (.call location called args kw) (args.after [called] location)
        .exceptionPropagated "Call arguments raise exception"
  /-- A call whose keyword arguments raise is these, after the effects of the other operands. -/
  | kwRaises {location : Location} {called args kw : Expression} :
      called.raises = false → args.raises = false → kw.raises = true →
      Rewrites (.call location called args kw) (kw.after [called, args] location)
        .exceptionPropagated "Call keyword arguments raise exception"
  /-- A call of a constant raises, after the effects of the arguments. -/
  | constantCalled {location place : Location} {value : Constant} {args kw : Expression} :
      args.raises = false → kw.raises = false →
      Rewrites (.call location (.constant place value) args kw)
        ((Expression.raise location (.notCallable value.typeName)).after [args, kw] location)
        .exceptionPropagated
        (predicted "Call of constant value pre-computed." (.notCallable value.typeName))
  /-- Effects end with the first that raises, and the value with them. -/
  | effectRaises {location : Location} {before rest : List Expression}
      {raising value : Expression} :
      (∀ e ∈ before, e.raises = false) → raising.raises = true →
      Rewrites (.sideEffects location (before ++ raising :: rest) value)
        (raising.after before location) .exceptionPropagated
        "Side effects raise exception, value is never computed."
  /-- Where all effects are none, only the value is left. -/
  | effectsRemoved {location : Location} {effects : List Expression} {value : Expression} :
      (∀ e ∈ effects, e.mayHaveEffects = false) →
      Rewrites (.sideEffects location effects value) value .simplified
        "Side effects removed as they have no effect."
  /-- Effects that are none are removed from among the others. -/
  | effectsFiltered {location : Location} {effects : List Expression} {value : Expression} :
      (∀ e ∈ effects, e.raises = false) → effects.filter mayHaveEffects ≠ [] →
      (∃ e ∈ effects, e.mayHaveEffects = false) →
      Rewrites (.sideEffects location effects value)
        (.sideEffects location (effects.filter mayHaveEffects) value) .simplified
        "Side effects without effect removed."
  /-- A tuple ends with the first element that raises. -/
  | elementRaises {location : Location} {before rest : List Expression} {raising : Expression} :
      (∀ e ∈ before, e.raises = false) → raising.raises = true →
      Rewrites (.tuple location (before ++ raising :: rest)) (raising.after before location)
        .exceptionPropagated "Tuple element raises exception, tuple is never created."
  /-- A tuple of constants is a constant. -/
  | tupleFolds {location : Location} {elements : List Expression} {values : List Constant} :
      elements.map constant? = values.map some →
      Rewrites (.tuple location elements) (.constant location (.tuple values)) .constantFolded
        "Tuple with constant elements pre-computed."

namespace Expression

/-! ## Terminal nodes -/

/-- No rule applies to the node: no operand that is evaluated in any case raises, no operation is
    known in advance, and no effect is idle. -/
def Terminal : Expression → Prop
  | .attributeLookup _ source name =>
    source.raises = false ∧
      ∀ place value, source = .constant place value → value.lookupAttribute name = .ok none
  | .specialLookup _ source _ => source.raises = false
  | .getattr _ source selector _ => selector.string? = none ∨ source.mayHaveEffects = true
  | .hasattr _ source selector => source.isConstant = false ∨ selector.string? = none
  | .call _ called args kw =>
    called.raises = false ∧ args.raises = false ∧ kw.raises = false ∧ called.isConstant = false
  | .sideEffects _ effects _ =>
    effects ≠ [] ∧ ∀ e ∈ effects, e.mayHaveEffects = true ∧ e.raises = false
  | .tuple _ elements =>
    (∀ e ∈ elements, e.raises = false) ∧ ∃ e ∈ elements, e.isConstant = false
  | .setattr .. | .constant .. | .var .. | .raise .. => True

/-- Expressions with values are constants. -/
theorem isConstant_of_map_constant? {es : List Expression} {values : List Constant}
    (h : es.map constant? = values.map some) : ∀ e ∈ es, e.isConstant = true := by
  intro e he
  have hmem : e.constant? ∈ values.map some := h ▸ List.mem_map_of_mem he
  obtain ⟨value, -, hvalue⟩ := List.mem_map.1 hmem
  cases e <;> simp_all [constant?, isConstant]

/-- A rule applies to no terminal node. -/
theorem not_terminal_of_rewrites {node replacement : Expression} {tag : ChangeTag}
    {description : String} (h : Rewrites node replacement tag description) : ¬node.Terminal := by
  intro hterminal
  cases h with
  | lookupRaises hraises => exact absurd hterminal.1 (by simp [hraises])
  | lookupFolds hfolds => exact absurd (hterminal.2 _ _ rfl) (by simp [hfolds])
  | lookupFails hfails => exact absurd (hterminal.2 _ _ rfl) (by simp [hfails])
  | specialLookupRaises hraises => exact absurd hterminal (by simp [Terminal, hraises])
  | getattr heffects =>
      rcases hterminal with hname | heffects'
      · simp [string?, constant?, Constant.string?] at hname
      · rw [effects_eq_nil_iff.1 heffects] at heffects'
        exact Bool.noConfusion heffects'
  | hasattr =>
      rcases hterminal with hsource | hname
      · exact Bool.noConfusion hsource
      · simp [string?, constant?, Constant.string?] at hname
  | calledRaises hraises => exact absurd hterminal.1 (by simp [hraises])
  | argsRaise _ hraises => exact absurd hterminal.2.1 (by simp [hraises])
  | kwRaises _ _ hraises => exact absurd hterminal.2.2.1 (by simp [hraises])
  | constantCalled => exact Bool.noConfusion hterminal.2.2.2
  | effectRaises _ hraises =>
      exact absurd (hterminal.2 _ (List.mem_append_right _ (List.mem_cons_self ..))).2
        (by simp [hraises])
  | @effectsRemoved _ effects _ hidle =>
      obtain ⟨e, he⟩ := List.exists_mem_of_ne_nil effects hterminal.1
      exact absurd (hterminal.2 e he).1 (by simp [hidle e he])
  | effectsFiltered _ _ hidle =>
      obtain ⟨e, he, hidle⟩ := hidle
      exact absurd (hterminal.2 e he).1 (by simp [hidle])
  | elementRaises _ hraises =>
      exact absurd (hterminal.1 _ (List.mem_append_right _ (List.mem_cons_self ..)))
        (by simp [hraises])
  | tupleFolds hvalues =>
      obtain ⟨e, he, hconstant⟩ := hterminal.2
      rw [isConstant_of_map_constant? hvalues e he] at hconstant
      cases hconstant

/-! ## Where the nodes of a replacement come from -/

/-- The operations on constants with the constants that take their place. -/
inductive FoldsTo : Expression → Constant → Prop where
  | lookup {location place : Location} {value folded : Constant} {name : String} :
      value.lookupAttribute name = .ok (some folded) →
      FoldsTo (.attributeLookup location (.constant place value) name) folded
  | hasattr {location place place' : Location} {value : Constant} {name : String} :
      FoldsTo (.hasattr location (.constant place value) (.constant place' (.str name)))
        (.bool (value.hasAttribute name))
  | tuple {location : Location} {elements : List Expression} {values : List Constant} :
      elements.map constant? = values.map some →
      FoldsTo (.tuple location elements) (.tuple values)

/-- The other nodes that rules make: exceptions that are raised, plain lookups and nodes for
    effects. -/
def OfMadeKind (n : Expression) : Prop :=
  n.kind = .raise ∨ n.kind = .attributeLookup ∨ n.kind = .sideEffects

/-- What holds of the nodes below a node, and of the constant that it folds to and of what rules
    make at its location, holds of the nodes of a replacement. -/
theorem forall_mem_nodes_of_rewrites {p : Expression → Prop} {node replacement : Expression}
    {tag : ChangeTag} {description : String} (h : Rewrites node replacement tag description)
    (hbelow : ∀ c ∈ node.children, ∀ n ∈ c.nodes, p n)
    (hfolded : ∀ value, FoldsTo node value → p (.constant node.location value))
    (hmade : ∀ n, OfMadeKind n → n.location = node.location → p n) :
    ∀ n ∈ replacement.nodes, p n := by
  have hafter : ∀ {kept : Expression} {dropped : List Expression},
      (∀ n ∈ kept.nodes, p n) → (∀ e ∈ dropped, ∀ n ∈ e.nodes, p n) →
      ∀ n ∈ (kept.after dropped node.location).nodes, p n := fun hkept hdropped =>
    forall_mem_nodes_after (fun n hn => hmade n (Or.inr (Or.inr hn))) hkept hdropped
  have hraise : ∀ exception, ∀ n ∈ (Expression.raise node.location exception).nodes, p n :=
    fun _ => forall_mem_nodes.2 ⟨hmade _ (Or.inl rfl) rfl, List.forall_mem_nil _⟩
  cases h with
  | lookupRaises _ => exact hbelow _ (by simp [children])
  | lookupFolds hfolds =>
      exact forall_mem_nodes.2 ⟨hfolded _ (.lookup hfolds), List.forall_mem_nil _⟩
  | lookupFails _ => exact hraise _
  | specialLookupRaises _ => exact hbelow _ (by simp [children])
  | @getattr location place source name fallback _ =>
      have hsource := hbelow source (by simp [children])
      have hlookup : ∀ n ∈ (attributeLookup location source name).nodes, p n :=
        forall_mem_nodes.2 ⟨hmade _ (Or.inr (Or.inl rfl)) rfl, List.forall_mem_singleton.2 hsource⟩
      exact hafter hlookup
        fun e he => hbelow e (by simp [children, Option.mem_toList.1 he])
  | hasattr => exact forall_mem_nodes.2 ⟨hfolded _ .hasattr, List.forall_mem_nil _⟩
  | calledRaises _ => exact hbelow _ (by simp [children])
  | argsRaise _ _ =>
      simp only [children, List.forall_mem_cons] at hbelow
      exact hafter hbelow.2.1 (List.forall_mem_singleton.2 hbelow.1)
  | kwRaises _ _ _ =>
      simp only [children, List.forall_mem_cons] at hbelow
      exact hafter hbelow.2.2.1
        (List.forall_mem_cons.2 ⟨hbelow.1, List.forall_mem_singleton.2 hbelow.2.1⟩)
  | constantCalled _ _ =>
      exact hafter (hraise _) fun e he => hbelow e (List.mem_cons_of_mem _ he)
  | effectRaises _ _ =>
      exact hafter (hbelow _ (effect_mem_children (by simp) ..))
        fun e he => hbelow e (effect_mem_children (List.mem_append_left _ he) ..)
  | effectsRemoved _ => exact hbelow _ (value_mem_children ..)
  | effectsFiltered _ _ _ =>
      refine forall_mem_nodes.2 ⟨hmade _ (Or.inr (Or.inr rfl)) rfl,
        List.forall_mem_append.2 ⟨fun e he => ?_, ?_⟩⟩
      · exact hbelow e (effect_mem_children (List.mem_of_mem_filter he) ..)
      · exact List.forall_mem_singleton.2 (hbelow _ (value_mem_children ..))
  | elementRaises _ _ =>
      exact hafter (hbelow _ (by simp [children]))
        fun e he => hbelow e (List.mem_append_left _ he)
  | tupleFolds hvalues =>
      exact forall_mem_nodes.2 ⟨hfolded _ (.tuple hvalues), List.forall_mem_nil _⟩

/-! ## One lemma for each function of the rules -/

/-- What an attempt at a node may answer: nothing to do at a terminal node, or a rule applied. -/
inductive Answers (node : Expression) : Except Defect Simplification → Prop where
  | unchanged : node.Terminal → Answers node (.ok .unchanged)
  | changed {replacement : Expression} {tag : ChangeTag} {description : String} :
      Rewrites node replacement tag description →
      Answers node (.ok (.changed replacement tag description))

theorem simplifyLookup_spec (location : Location) (source : Expression) (name : String) :
    Answers (.attributeLookup location source name)
      (simplifyLookup (.attributeLookup location source name) source name) := by
  unfold simplifyLookup
  split
  · next hraises => exact .changed (.lookupRaises hraises)
  · next hraises =>
      have hquiet : source.raises = false := by simpa using hraises
      cases source with
      | constant place value =>
          simp only [simplifyLookupOn, simplifyConstantLookup]
          split
          · next hlookup => exact .changed (.lookupFolds hlookup)
          · next hlookup =>
              refine .unchanged ⟨hquiet, ?_⟩
              rintro place value heq
              cases heq
              exact hlookup
          · next hlookup => exact .changed (.lookupFails hlookup)
      | _ => exact .unchanged ⟨hquiet, nofun⟩

theorem simplifySpecialLookup_spec (location : Location) (source : Expression) (name : String) :
    Answers (.specialLookup location source name) (simplifySpecialLookup source) := by
  unfold simplifySpecialLookup
  split
  · next hraises => exact .changed (.specialLookupRaises hraises)
  · next hraises => exact .unchanged (show source.raises = false by simpa using hraises)

/-- The only expressions whose text is known are string constants. -/
theorem eq_of_string?_eq_some {e : Expression} {name : String} (h : e.string? = some name) :
    ∃ place, e = .constant place (.str name) := by
  cases e with
  | constant place value =>
      cases value with
      | str text =>
          obtain rfl : text = name := Option.some.inj h
          exact ⟨place, rfl⟩
      | _ => cases h
  | _ => cases h

/-- The name is a constant, so of the dropped operands only the fallback can have effects. -/
theorem allEffects_droppedByGetattr (place : Location) (name : String)
    (fallback : Option Expression) :
    allEffects ((constant place (.str name)).effects ++ (fallback.map effects).getD []) =
      allEffects fallback.toList := by
  cases fallback <;> simp [allEffects, effects]

theorem simplifyGetattr_spec (location : Location) (source selector : Expression)
    (fallback : Option Expression) :
    Answers (.getattr location source selector fallback)
      (simplifyGetattr location source selector fallback) := by
  unfold simplifyGetattr
  split
  · next hname => exact .unchanged (Or.inl hname)
  · next name hname =>
      obtain ⟨place, rfl⟩ := eq_of_string?_eq_some hname
      split
      · next heffects =>
          have hrule : Rewrites (.getattr location source (.constant place (.str name)) fallback)
              _ _ _ := .getattr (List.isEmpty_iff.1 heffects)
          rw [← after_congr (allEffects_droppedByGetattr place name fallback)] at hrule
          exact .changed hrule
      · next heffects =>
          refine .unchanged (Or.inr ?_)
          rw [List.isEmpty_iff, effects_eq_nil_iff] at heffects
          simpa using heffects

theorem simplifyHasattr_spec (location : Location) (source selector : Expression) :
    Answers (.hasattr location source selector) (simplifyHasattr location source selector) := by
  unfold simplifyHasattr
  cases source with
  | constant place value =>
      cases hname : selector.string? with
      | none => exact .unchanged (Or.inr hname)
      | some name =>
          obtain ⟨place', rfl⟩ := eq_of_string?_eq_some hname
          exact .changed .hasattr
  | _ => exact .unchanged (Or.inl rfl)

theorem allEffects_argumentEffects (location : Location) (called args kw : Expression) :
    allEffects (call location called args kw).argumentEffects = allEffects [args, kw] := by
  simp [argumentEffects, allEffects]

theorem simplifyCall_spec (location : Location) (called args kw : Expression) :
    Answers (.call location called args kw)
      (simplifyCall (.call location called args kw) called args kw) := by
  unfold simplifyCall
  split
  · next hcalled => exact .changed (.calledRaises hcalled)
  · next hcalled =>
      rw [Bool.not_eq_true] at hcalled
      split
      · next hargs => exact .changed (.argsRaise hcalled hargs)
      · next hargs =>
          rw [Bool.not_eq_true] at hargs
          split
          · next hkw => exact .changed (.kwRaises hcalled hargs hkw)
          · next hkw =>
              rw [Bool.not_eq_true] at hkw
              cases called with
              | constant place value =>
                  have hrule : Rewrites (.call location (.constant place value) args kw) _ _ _ :=
                    .constantCalled hargs hkw
                  rw [← after_congr (allEffects_argumentEffects ..)] at hrule
                  exact .changed hrule
              | _ => exact .unchanged ⟨hcalled, hargs, hkw, rfl⟩

/-- The list is either quiet, or split at the first of its expressions that raises. -/
theorem splitAtRaise?_cases (es : List Expression) :
    splitAtRaise? es = none ∧ (∀ e ∈ es, e.raises = false) ∨
      ∃ before raising rest, splitAtRaise? es = some (before, raising) ∧
        es = before ++ raising :: rest ∧ (∀ e ∈ before, e.raises = false) ∧
        raising.raises = true := by
  induction es with
  | nil => exact Or.inl ⟨rfl, nofun⟩
  | cons e rest ih =>
      cases he : e.raises with
      | true => exact Or.inr ⟨[], e, rest, by simp [splitAtRaise?, he], rfl, nofun, he⟩
      | false =>
          rcases ih with ⟨hnone, hquiet⟩ | ⟨before, raising, rest', hsome, rfl, hquiet, hraises⟩
          · exact Or.inl ⟨by simp [splitAtRaise?, he, hnone], List.forall_mem_cons.2 ⟨he, hquiet⟩⟩
          · exact Or.inr ⟨e :: before, raising, rest', by simp [splitAtRaise?, he, hsome], rfl,
              List.forall_mem_cons.2 ⟨he, hquiet⟩, hraises⟩

theorem simplifySideEffects_spec (location : Location) (effects : List Expression)
    (value : Expression) :
    Answers (.sideEffects location effects value) (simplifySideEffects location effects value) := by
  unfold simplifySideEffects
  rcases splitAtRaise?_cases effects with
    ⟨hnone, hquiet⟩ | ⟨before, raising, rest, hsome, rfl, hquiet, hraises⟩
  · rw [hnone]
    dsimp only
    split
    · next hkept =>
        rw [List.isEmpty_iff, List.filter_eq_nil_iff] at hkept
        exact .changed (.effectsRemoved fun e he => by simpa using hkept e he)
    · next hkept =>
        rw [List.isEmpty_iff] at hkept
        split
        · next hlength =>
            rw [List.length_filter_eq_length_iff] at hlength
            refine .unchanged ⟨?_, fun e he => ⟨hlength e he, hquiet e he⟩⟩
            rintro rfl
            exact hkept rfl
        · next hlength =>
            refine .changed (.effectsFiltered hquiet hkept ?_)
            rw [List.length_filter_eq_length_iff] at hlength
            simpa using hlength
  · rw [hsome]
    exact .changed (.effectRaises hquiet hraises)

/-- The values of a list of constants are found, each of them. -/
theorem mapM_constantOperand {es : List Expression} (h : ∀ e ∈ es, e.isConstant = true) :
    ∃ values, es.mapM constantOperand = .ok values ∧ es.map constant? = values.map some := by
  induction es with
  | nil => exact ⟨[], rfl, rfl⟩
  | cons e rest ih =>
      obtain ⟨he, hrest⟩ := List.forall_mem_cons.1 h
      obtain ⟨values, hvalues, hmap⟩ := ih hrest
      cases e with
      | constant place value =>
          refine ⟨value :: values, ?_, by simp [constant?, hmap]⟩
          rw [List.mapM_cons, hvalues]
          rfl
      | _ => exact Bool.noConfusion he

theorem simplifyTuple_spec (location : Location) (elements : List Expression) :
    Answers (.tuple location elements) (simplifyTuple location elements) := by
  unfold simplifyTuple
  rcases splitAtRaise?_cases elements with
    ⟨hnone, hquiet⟩ | ⟨before, raising, rest, hsome, rfl, hquiet, hraises⟩
  · rw [hnone]
    dsimp only
    split
    · next hconstant =>
        obtain ⟨values, hvalues, hmap⟩ := mapM_constantOperand (List.all_eq_true.1 hconstant)
        rw [hvalues]
        exact .changed (.tupleFolds hmap)
    · next hconstant =>
        refine .unchanged ⟨hquiet, ?_⟩
        simpa using hconstant
  · rw [hsome]
    exact .changed (.elementRaises hquiet hraises)

/-! ## One attempt -/

/-- An attempt leaves exactly the terminal nodes as they are, applies a rule to any other, and comes
    upon no defect. -/
theorem simplify_spec (node : Expression) : Answers node node.simplify := by
  cases node with
  | attributeLookup location source name => exact simplifyLookup_spec location source name
  | specialLookup location source name => exact simplifySpecialLookup_spec location source name
  | getattr location source selector fallback =>
      exact simplifyGetattr_spec location source selector fallback
  | hasattr location source selector => exact simplifyHasattr_spec location source selector
  | sideEffects location effects value => exact simplifySideEffects_spec location effects value
  | tuple location elements => exact simplifyTuple_spec location elements
  | call location called args kw => exact simplifyCall_spec location called args kw
  | _ => exact .unchanged trivial

theorem simplify_eq_unchanged_iff {node : Expression} :
    node.simplify = .ok .unchanged ↔ node.Terminal := by
  have hspec := simplify_spec node
  constructor
  · intro h
    rw [h] at hspec
    cases hspec with
    | unchanged hterminal => exact hterminal
  · intro hterminal
    cases hresult : node.simplify with
    | error defect => rw [hresult] at hspec; cases hspec
    | ok answer =>
        rw [hresult] at hspec
        cases hspec with
        | unchanged => rfl
        | changed hrewrites => exact absurd hterminal (not_terminal_of_rewrites hrewrites)

/-! ## Every rule is applied -/

theorem splitAtRaise?_eq_none {es : List Expression} (h : ∀ e ∈ es, e.raises = false) :
    splitAtRaise? es = none := by
  rcases splitAtRaise?_cases es with ⟨hnone, -⟩ | ⟨before, raising, rest, -, rfl, -, hraises⟩
  · exact hnone
  · have hquiet := h raising (List.mem_append_right _ (List.mem_cons_self ..))
    rw [hraises] at hquiet
    cases hquiet

theorem splitAtRaise?_append {before rest : List Expression} {raising : Expression}
    (hbefore : ∀ e ∈ before, e.raises = false) (hraises : raising.raises = true) :
    splitAtRaise? (before ++ raising :: rest) = some (before, raising) := by
  induction before with
  | nil => simp [splitAtRaise?, hraises]
  | cons e before ih =>
      obtain ⟨he, hbefore⟩ := List.forall_mem_cons.1 hbefore
      simp [splitAtRaise?, he, ih hbefore]

theorem mapM_constantOperand_eq {es : List Expression} {values : List Constant}
    (h : es.map constant? = values.map some) : es.mapM constantOperand = .ok values := by
  obtain ⟨others, hothers, hmap⟩ := mapM_constantOperand (isConstant_of_map_constant? h)
  have hsame : others = values :=
    List.map_injective_iff.2 (fun _ _ => Option.some.inj) (hmap.symm.trans h)
  rw [hothers, hsame]

/-- An attempt applies the very rule that the relation names, so that no two rules compete for a
    node. -/
theorem simplify_of_rewrites {node replacement : Expression} {tag : ChangeTag}
    {description : String} (h : Rewrites node replacement tag description) :
    node.simplify = .ok (.changed replacement tag description) := by
  cases h with
  | lookupRaises hraises => exact if_pos hraises
  | lookupFolds hfolds =>
      simp [simplify, simplifyLookup, alwaysRaises, simplifyLookupOn, simplifyConstantLookup,
        hfolds, Simplification.ofComputation, location]
  | lookupFails hfails =>
      simp [simplify, simplifyLookup, alwaysRaises, simplifyLookupOn, simplifyConstantLookup,
        hfails, Simplification.ofComputation, location, predicted]
  | specialLookupRaises hraises => exact if_pos hraises
  | @getattr location place source name fallback heffects =>
      rw [← after_congr (allEffects_droppedByGetattr place name fallback)]
      exact if_pos (List.isEmpty_iff.2 heffects)
  | hasattr => rfl
  | calledRaises hcalled => exact if_pos hcalled
  | argsRaise hcalled hargs => simp [simplify, simplifyCall, hcalled, hargs, location]
  | kwRaises hcalled hargs hkw => simp [simplify, simplifyCall, hcalled, hargs, hkw, location]
  | @constantCalled location place value args kw hargs hkw =>
      have hcalled : (constant place value).raises = false := rfl
      rw [← after_congr (allEffects_argumentEffects location (constant place value) args kw)]
      simp only [simplify, simplifyCall, hcalled, hargs, hkw, Bool.false_eq_true, if_false]
      rfl
  | effectRaises hbefore hraises =>
      simp only [simplify, simplifySideEffects, splitAtRaise?_append hbefore hraises]
  | @effectsRemoved _ effects _ hidle =>
      have hkept : effects.filter mayHaveEffects = [] :=
        List.filter_eq_nil_iff.2 fun e he => by simp [hidle e he]
      have hquiet : ∀ e ∈ effects, e.raises = false := fun e he => raises_eq_false (hidle e he)
      simp [simplify, simplifySideEffects, splitAtRaise?_eq_none hquiet, hkept]
  | @effectsFiltered _ effects _ hquiet hkept hidle =>
      have hlength : (effects.filter mayHaveEffects).length ≠ effects.length := by
        rw [Ne, List.length_filter_eq_length_iff]
        simpa using hidle
      simp [simplify, simplifySideEffects, splitAtRaise?_eq_none hquiet, hkept, hlength]
  | elementRaises hbefore hraises =>
      simp only [simplify, simplifyTuple, splitAtRaise?_append hbefore hraises]
  | @tupleFolds location elements values hvalues =>
      have hconstant := isConstant_of_map_constant? hvalues
      have hquiet : ∀ e ∈ elements, e.raises = false := by
        intro e he
        have he := hconstant e he
        cases e <;> first | rfl | cases he
      rw [simplify, simplifyTuple, splitAtRaise?_eq_none hquiet, mapM_constantOperand_eq hvalues]
      exact if_pos (List.all_eq_true.2 hconstant)

theorem simplify_eq_changed_iff {node replacement : Expression} {tag : ChangeTag}
    {description : String} :
    node.simplify = .ok (.changed replacement tag description) ↔
      Rewrites node replacement tag description := by
  constructor
  · intro h
    have hspec := simplify_spec node
    rw [h] at hspec
    cases hspec with
    | changed hrewrites => exact hrewrites
  · exact simplify_of_rewrites

end Expression

end AttributeOptimizer
