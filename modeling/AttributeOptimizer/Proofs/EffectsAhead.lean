import AttributeOptimizer.Proofs.KeptEffects

set_option autoImplicit false

/-! # Effects ahead of a value

`Expression.after` may be applied to what it has given: a rule drops one operand and then another.
Where there are effects to keep, the node that comes out is the same expression behind a list of
effects (`after_eq_sideEffects`), and a later application puts its effects at the front of that
list. So to put lists in front one after the other is to put their concatenation in front, once
(`after_after`), and only the effects of the lists count: where there are none the node stays as it
is, and only there (`after_eq_self_iff`). -/

namespace AttributeOptimizer

namespace Expression

/-! ## The two parts of a node -/

/-- The effects that a node evaluates before the expression whose value it has. -/
def effectsAhead : Expression → List Expression
  | .sideEffects _ effects _ => effects
  | _ => []

/-- The expression whose value a node has, without the effects ahead of it. -/
def behindEffects : Expression → Expression
  | .sideEffects _ _ value => value
  | node => node

/-- New effects come in front of those that are ahead already, in one node at the new location. -/
theorem after_eq_sideEffects {dropped : List Expression} (h : allEffects dropped ≠ [])
    (node : Expression) (location : Location) :
    node.after dropped location =
      .sideEffects location (allEffects dropped ++ node.effectsAhead) node.behindEffects := by
  rw [after, flatMap_effects_filter]
  cases hdropped : allEffects dropped with
  | nil => exact absurd hdropped h
  | cons first rest =>
      cases node with
      | sideEffects place inner value => rfl
      | _ => simp [effectsAhead, behindEffects]

/-! ## One list after the other -/

/-- To put effects in front, and then others in front of these, is to put all in front at once. -/
theorem after_after (node : Expression) (as bs : List Expression) (location : Location) :
    (node.after bs location).after as location = node.after (as ++ bs) location := by
  by_cases has : allEffects as = []
  · have hsame : allEffects (as ++ bs) = allEffects bs := by
      rw [allEffects_append, has, List.nil_append]
    rw [after_eq_self (allEffects_eq_nil_iff.1 has), after_congr hsame]
  · by_cases hbs : allEffects bs = []
    · have hsame : allEffects (as ++ bs) = allEffects as := by
        rw [allEffects_append, hbs, List.append_nil]
      rw [after_eq_self (allEffects_eq_nil_iff.1 hbs), after_congr hsame]
    · -- The inner application has made the node that the outer one takes apart again.
      have hboth : allEffects (as ++ bs) ≠ [] := by
        rw [allEffects_append]
        exact List.append_ne_nil_of_left_ne_nil has _
      rw [after_eq_sideEffects hbs, after_eq_sideEffects has, after_eq_sideEffects hboth,
        effectsAhead, behindEffects, allEffects_append, List.append_assoc]

/-! ## Only effects count -/

/-- None of the effects that come in front of a node is lost, and none of its own. -/
theorem effects_after (node : Expression) (dropped : List Expression) (location : Location) :
    (node.after dropped location).effects = allEffects dropped ++ node.effects := by
  rcases after_cases node dropped location with
    ⟨hnone, hafter⟩ | ⟨place, inner, value, -, rfl, hafter⟩ | ⟨-, hafter⟩
  · rw [hafter, hnone, List.nil_append]
  · rw [hafter, effects, effects, allEffects_append, allEffects_allEffects, List.append_assoc]
  · rw [hafter, effects, allEffects_allEffects]

/-- A node stays as it is exactly if no effect comes in front of it. -/
theorem after_eq_self_iff {node : Expression} {dropped : List Expression} {location : Location} :
    node.after dropped location = node ↔ ∀ e ∈ dropped, e.mayHaveEffects = false := by
  constructor
  · intro hsame
    have heffects : allEffects dropped ++ node.effects = node.effects := by
      rw [← effects_after node dropped location, hsame]
    exact allEffects_eq_nil_iff.1 (List.append_left_eq_self.1 heffects)
  · intro hidle
    exact after_eq_self hidle node location

/-- An expression among those that are dropped may be replaced by its effects. -/
theorem allEffects_replace (before : List Expression) (e : Expression) (rest : List Expression) :
    allEffects (before ++ e.effects ++ rest) = allEffects (before ++ e :: rest) := by
  rw [List.append_assoc, allEffects_append, allEffects_append, allEffects_append,
    allEffects_effects, allEffects]

/-- The effects of a single expression come in front as those of the list of it do. -/
theorem inPlaceOf_eq_after (node old : Expression) :
    node.inPlaceOf old = node.after [old] old.location := by
  have heffects : allEffects old.effects = allEffects [old] := by
    simpa using allEffects_replace [] old []
  exact after_congr heffects node old.location

/-- Putting effects in front of a node, at the location of the node that it replaces, composes as
    lists do: two lists, one after the other, come in front as their concatenation does. The node
    stays as it is exactly if nothing in the list has effects. It makes no difference whether the
    list holds an expression or, in its place, the effects of the expression, so that the effects of
    the replaced node itself come in front as those of the list of it do. -/
theorem effects_in_front_concatenate (old new : Expression) :
    (∀ as bs : List Expression,
      (new.after bs old.location).after as old.location = new.after (as ++ bs) old.location) ∧
    (∀ dropped : List Expression,
      new.after dropped old.location = new ↔ ∀ e ∈ dropped, e.mayHaveEffects = false) ∧
    (∀ (before : List Expression) (e : Expression) (rest : List Expression),
      new.after (before ++ e.effects ++ rest) old.location =
        new.after (before ++ e :: rest) old.location) ∧
    new.inPlaceOf old = new.after [old] old.location :=
  ⟨fun as bs => after_after new as bs old.location, fun _ => after_eq_self_iff,
    fun before e rest => after_congr (allEffects_replace before e rest) new old.location,
    inPlaceOf_eq_after new old⟩

/-- Two lists come in front of a node that has an effect ahead of its value: what they leave stands
    in one list, at the location of the replaced node, and what was put in front last comes first. A
    variable and a tuple of constants leave the node as it is, at its own location. -/
theorem calls_come_in_front :
    let here : Location := ⟨"m.py", 1⟩
    let called (name : String) := call here (var here name) (constant here .emptyTuple)
      (constant here .emptyDict)
    let idle := [var here "x", tuple here [constant here (.int 1)]]
    let old := var ⟨"m.py", 2⟩ "old"
    let new := sideEffects here [called "h"] (var here "v")
    (new.after [sideEffects here [called "g"] (var here "y")] old.location).after
        [tuple here [called "f", var here "z"]] old.location =
      sideEffects ⟨"m.py", 2⟩ [called "f", called "g", called "h"] (var here "v") ∧
    (∀ e ∈ idle, e.mayHaveEffects = false) ∧ new.after idle old.location = new := by
  intro here called idle old new
  obtain ⟨hconcatenate, hself, -, -⟩ := effects_in_front_concatenate old new
  have hidle : ∀ e ∈ idle, e.mayHaveEffects = false := by
    intro e he
    simp only [idle, List.mem_cons, List.not_mem_nil, or_false] at he
    rcases he with rfl | rfl <;> rfl
  refine ⟨?_, hidle, (hself idle).2 hidle⟩
  rw [hconcatenate]
  rfl

end Expression

end AttributeOptimizer
