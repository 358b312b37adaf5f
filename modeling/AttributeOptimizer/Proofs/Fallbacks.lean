import AttributeOptimizer.Proofs.Meaning
import AttributeOptimizer.Proofs.NormalForm

set_option autoImplicit false

/-! # What becomes of a fallback

A lookup through the builtin with a literal name, on a receiver without effects, is replaced by the
plain lookup after the effects of the fallback. The value of the fallback is dropped with it: what
is left does what `evalPlainly` does, on every machine, and where the lookup raises, so does what is
left, whether or not there was a fallback to use instead. -/

namespace AttributeOptimizer

open Expression

variable {World Value Thrown : Type} {M : Machine World Value Thrown}

/-! ## Receivers without effects -/

namespace Expression

/-- A rule leaves no effect where there was none. -/
theorem effects_of_rewrites_eq_nil {node replacement : Expression} {tag : ChangeTag}
    {description : String} (h : Rewrites node replacement tag description)
    (hnode : node.effects = []) : replacement.effects = [] := by
  have hchildren := (effects_eq_nil_iff_children.1 hnode).2
  have hquiet : ∀ c ∈ node.children, ¬c.raises = true := by
    intro c hc
    rw [raises_eq_false (effects_eq_nil_iff.1 (hchildren c hc))]
    exact Bool.false_ne_true
  cases h with
  | effectRaises _ hraises => exact absurd hraises (hquiet _ (by simp [children]))
  | effectsRemoved _ => exact hchildren _ (value_mem_children ..)
  | effectsFiltered _ _ _ =>
      rw [effects, allEffects_eq_flatMap, flatMap_effects_filter]
      exact hnode
  | elementRaises _ hraises => exact absurd hraises (hquiet _ (by simp [children]))
  | tupleFolds _ => rfl
  | _ => cases hnode

theorem effects_afterPass_eq_nil {e : Expression} (h : e.effects = []) :
    e.afterPass.effects = [] := by
  induction e using childInduction with
  | node e ih =>
      have hover : (e.overChildren afterPass).effects = [] := by
        rw [effects_eq_nil_iff_children] at h ⊢
        rw [kind_overChildren, forall_mem_children_overChildren]
        exact ⟨h.1, fun c hc => ih c hc (h.2 c hc)⟩
      rcases afterPass_cases e with ⟨hsame, -⟩ | ⟨tag, description, hrewrites⟩
      · rw [hsame]
        exact hover
      · exact effects_of_rewrites_eq_nil hrewrites hover

/-! ## The plain lookup -/

/-- The lookup of a name after the receiver, the selector and the fallback have been evaluated, in
    this order; the value of the fallback is not used. -/
def evalPlainly (M : Machine World Value Thrown) (source selector fallback : Expression)
    (name : String) : Action World Thrown Value := do
  let receiver ← source.eval M
  let _ ← selector.eval M
  let _ ← fallback.eval M
  M.lookup receiver name

section

variable {source fallback : Expression} (location place : Location) (name : String)

/-- The answer to a lookup through the builtin with a literal name, on a receiver without effects,
    is the plain lookup after the fallback's effects. -/
theorem answer_getattr (hsource : source.effects = []) (other : Option Expression) :
    ∃ description,
      (getattr location source (.constant place (.str name)) other).answer =
        .changed ((attributeLookup location source name).after other.toList location)
          .simplified description :=
  ⟨_, answer_eq_changed_iff.2 (.getattr hsource)⟩

/-- On a receiver without effects, the plain lookup after the fallback's effects does what the plain
    lookup after all operands does. -/
theorem eval_lookup_after (hsource : source.effects = []) (M : Machine World Value Thrown) :
    ((attributeLookup location source name).after [fallback] location).eval M =
      evalPlainly M source (.constant place (.str name)) fallback name := by
  obtain ⟨receiver, hreceiver⟩ := eval_of_effects_eq_nil M hsource
  simp [eval_after, eval, evalPlainly, hreceiver]

theorem afterPass_getattr (hsource : source.effects = []) (other : Option Expression) :
    (getattr location source (.constant place (.str name)) other).afterPass =
      (attributeLookup location source.afterPass name).after (other.map afterPass).toList
        location := by
  rw [afterPass_eq, overChildren_getattr, afterPass_of_normal (normal_constant place (.str name))]
  exact afterAttempt_of_rewrites (.getattr (effects_afterPass_eq_nil hsource))

/-- After at least one pass, what is left does not use the value of the fallback, on any lawful
    machine that suits the operands. -/
theorem eval_outcomeFrom_getattr (hM : M.Lawful) (hsource : source.effects = [])
    (hsuits : M.Suits source) (hsuits' : M.Suits fallback) (recording : Bool) (done left : Nat) :
    (outcomeFrom recording done (left + 1)
        (getattr location source (.constant place (.str name)) (some fallback))).tree.eval M =
      evalPlainly M source (.constant place (.str name)) fallback name := by
  have hquiet := effects_afterPass_eq_nil hsource
  have hchildren : ∀ c ∈ (getattr location source.afterPass (.constant place (.str name))
      (some fallback.afterPass)).children, M.Suits c := by
    intro c hc
    simp only [children, Option.toList_some, List.mem_cons, List.not_mem_nil, or_false] at hc
    rcases hc with rfl | rfl | rfl
    · exact hsuits.afterPass
    · exact Machine.suits_iff.2 ⟨fun h => absurd rfl h, List.forall_mem_nil _⟩
    · exact hsuits'.afterPass
  have hlookup : M.Suits ((attributeLookup location source.afterPass name).after
      [fallback.afterPass] location) :=
    Machine.Suits.of_rewrites (.getattr hquiet) hchildren
  have heval : ((attributeLookup location source.afterPass name).after
      [fallback.afterPass] location).eval M =
        evalPlainly M source (.constant place (.str name)) fallback name := by
    rw [eval_lookup_after location place name hquiet M, evalPlainly, eval_afterPass hM hsuits,
      eval_afterPass hM hsuits', evalPlainly]
  rw [outcomeFrom, afterPass_getattr location place name hsource]
  split
  · exact heval
  · exact (eval_outcomeFrom hM hlookup recording (done + 1) left).trans heval

end

/-- A lookup through the builtin with a literal name and a fallback, on a receiver without effects,
    is replaced by what evaluates the operands in order and then makes the plain lookup, without the
    value of the fallback; so is the tree that a run leaves, on a lawful machine that ignores
    fallbacks, or if at least one pass is made over operands that have no fallback of their own.
    Where a constant does not have the attribute, an attribute error is raised in spite of the
    fallback. -/
theorem getattr_with_fallback_is_plain_lookup (location place : Location)
    {source : Expression} (fallback : Expression) (name : String) (hsource : source.effects = []) :
    let selector := constant place (.str name)
    let node := getattr location source selector (some fallback)
    ∃ replacement description,
      node.simplify = .ok (.changed replacement .simplified description) ∧
      ∀ {World Value Thrown : Type} (M : Machine World Value Thrown),
        replacement.eval M = evalPlainly M source selector fallback name ∧
        (M.Lawful → M.Suits source → M.Suits fallback → ∀ settings : Settings,
          M.IgnoresFallbacks ∨ 1 ≤ settings.maxPasses →
          ∃ o, optimize settings node = .ok o ∧
            o.tree.eval M = evalPlainly M source selector fallback name) ∧
        (M.Lawful → ∀ site value, source = constant site value →
          value.hasAttribute name = false →
          ∃ exception : RaisedException, exception.cls = .attributeError ∧
            evalPlainly M source selector fallback name = do
              let _ ← fallback.eval M
              throw (M.exception exception)) := by
  intro selector node
  obtain ⟨description, hanswer⟩ := answer_getattr location place name hsource (some fallback)
  refine ⟨_, description, ?_, fun M => ⟨eval_lookup_after location place name hsource M, ?_, ?_⟩⟩
  · rw [simplify_eq_answer, hanswer]
    rfl
  · intro hM hsuits hsuits' settings hpasses
    refine ⟨node.outcome settings, optimize_eq settings node, ?_⟩
    -- Without a pass the node itself is left, so that its own fallback must be ignored.
    rcases hpasses with hignores | hpasses
    · have hkept := eval_outcomeFrom hM (hignores.suits node) settings.recordChanges 0
        settings.maxPasses
      have hnode : node.eval M = evalPlainly M source selector fallback name := by
        simp [node, selector, eval, evalPlainly, hignores _ _ _]
      exact hkept.trans hnode
    · obtain ⟨left, hleft⟩ := Nat.exists_eq_add_of_le' hpasses
      rw [outcome, hleft]
      exact eval_outcomeFrom_getattr location place name hM hsource hsuits hsuits'
        settings.recordChanges 0 left
  · rintro hM site value rfl hmissing
    have hlookup : value.lookupAttribute name =
        .error (.missingAttribute value.typeName name) := by
      rw [Constant.lookupAttribute, hmissing]
      rfl
    refine ⟨.missingAttribute value.typeName name, rfl, ?_⟩
    simp [evalPlainly, selector, eval, hM.lookup_missing hlookup]

theorem missing_attribute_raises_after_fallback :
    let here : Location := ⟨"m.py", 1⟩
    let fallback := call here (var here "make_default") (constant here .emptyTuple)
      (constant here .emptyDict)
    let node := getattr here (constant here (.int 7)) (constant here (.str "missing"))
      (some fallback)
    ∃ o, optimize .standard node = .ok o ∧
      (o.tree.eval Machine.traced).run.run [] =
        (.error (.missingAttribute "int" "missing"), ["make_default()"]) := by
  intro here fallback node
  have hsource : (constant here (.int 7)).effects = [] := rfl
  obtain ⟨replacement, description, -, heval⟩ :=
    getattr_with_fallback_is_plain_lookup here here fallback "missing" hsource
  have hsuits : Machine.traced.Suits (constant here (.int 7)) := by
    simp [Machine.Suits, nodes_eq, children, fallback?]
  have hsuits' : Machine.traced.Suits fallback := by
    simp [fallback, Machine.Suits, nodes_eq, children, fallback?]
  obtain ⟨o, ho, hplain⟩ := (heval Machine.traced).2.1 Machine.lawful_traced hsuits hsuits'
    .standard (Or.inr (by decide))
  exact ⟨o, ho, by rw [hplain]; rfl⟩

/-- The value of a fallback is lost: where the compiled program uses it, what is left of the tree
    raises. -/
theorem fallback_is_lost :
    let here : Location := ⟨"m.py", 1⟩
    let node := getattr here (constant here (.int 3)) (constant here (.str "nope"))
      (some (constant here (.int 7)))
    (node.eval Machine.traced).run.run [] = (.ok (.constant (.int 7)), []) ∧
      (∃ s, node.simplify = .ok s ∧ ((s.node node).eval Machine.traced).run.run [] =
        (.error (.missingAttribute "int" "nope"), [])) ∧
      ∃ o, optimize ⟨16, false⟩ node = .ok o ∧ (o.tree.eval Machine.traced).run.run [] =
        (.error (.missingAttribute "int" "nope"), []) := by
  intro here node
  refine ⟨rfl, ⟨_, rfl, rfl⟩, ?_⟩
  exact ⟨_, rfl, rfl⟩

end Expression

end AttributeOptimizer
