import AttributeOptimizer.Constant.Attributes
import AttributeOptimizer.Proofs.Interpretation

set_option autoImplicit false

/-! # Evaluation

What a tree does when the compiled program runs. A `Machine` has the operations that the nodes stand
for: each may change the world, and gives a value or throws. `Expression.eval` runs the operands of
a node from left to right and then its operation; the first exception ends the whole evaluation.

Nothing is said of the operations but what the optimizer takes for granted of constants
(`Machine.Lawful`) and, where it drops fallbacks, that their values are not used
(`Machine.IgnoresFallbacks`). A machine is an interpretation of the nodes (`eval_interpretation`),
which is where it has from what holds of evaluation one after the other, of effects and of
`Expression.after`. -/

namespace AttributeOptimizer

/-- A computation of the compiled program: it may change the world, and ends with a result or with
    an exception that is thrown. -/
abbrev Action (World Thrown : Type) : Type → Type := ExceptT Thrown (StateM World)

namespace Action

variable {World Thrown α β : Type}

/-- The computation never ends with a result, so that it does not matter what comes after it. -/
def Aborts (x : Action World Thrown α) : Prop :=
  ∀ ⦃γ : Type⦄ (f g : α → Action World Thrown γ), x >>= f = x >>= g

theorem aborts_throw (thrown : Thrown) : Aborts (throw thrown : Action World Thrown α) :=
  fun _ f g => by rw [ExceptT.bind_throw, ExceptT.bind_throw]

theorem Aborts.bind {x : Action World Thrown α} (h : Aborts x) (k : α → Action World Thrown β) :
    Aborts (x >>= k) := by
  intro γ f g
  rw [bind_assoc, bind_assoc]
  exact h _ _

theorem Aborts.of_bind {k : α → Action World Thrown β} (h : ∀ a, Aborts (k a))
    (x : Action World Thrown α) : Aborts (x >>= k) := by
  intro γ f g
  rw [bind_assoc, bind_assoc]
  exact bind_congr fun a => h a f g

/-- What comes after a computation that aborts may be left out. -/
theorem Aborts.bind_self {x : Action World Thrown α} (h : Aborts x)
    (k : α → Action World Thrown α) : x >>= k = x :=
  (h k pure).trans (bind_pure x)

end Action

/-- What the nodes of an expression mean in the compiled program. -/
structure Machine (World Value Thrown : Type) where
  /-- The value that a constant stands for. -/
  constant : Constant → Value
  /-- The exception that is thrown where one is raised. -/
  exception : RaisedException → Thrown
  /-- The value of a local variable. -/
  read : String → Value
  /-- The tuple of some values. -/
  tuple : List Value → Value
  /-- Reads an attribute by its literal name. -/
  lookup : Value → String → Action World Thrown Value
  /-- Reads an attribute with a reserved name. -/
  specialLookup : Value → String → Action World Thrown Value
  /-- Reads an attribute by the value of its name, given the value of the fallback if any. -/
  getattr : Value → Value → Option Value → Action World Thrown Value
  /-- Sets an attribute by the value of its name. -/
  setattr : Value → Value → Value → Action World Thrown Value
  /-- Tests for an attribute by the value of its name. -/
  hasattr : Value → Value → Action World Thrown Value
  /-- Calls a value with the positional and the keyword arguments. -/
  call : Value → Value → Value → Action World Thrown Value

namespace Machine

variable {World Value Thrown : Type}

/-- The machine does with constants what is known of them at compile time, without touching the
    world, and a lookup through the builtin without a fallback does what a plain lookup does. -/
structure Lawful (M : Machine World Value Thrown) : Prop where
  lookup_value {value folded : Constant} {name : String} :
    value.lookupAttribute name = .ok (some folded) →
    M.lookup (M.constant value) name = pure (M.constant folded)
  lookup_missing {value : Constant} {name : String} {exception : RaisedException} :
    value.lookupAttribute name = .error exception →
    M.lookup (M.constant value) name = throw (M.exception exception)
  hasattr_constant (value : Constant) (name : String) :
    M.hasattr (M.constant value) (M.constant (.str name)) =
      pure (M.constant (.bool (value.hasAttribute name)))
  call_constant (value : Constant) (args kw : Value) :
    M.call (M.constant value) args kw = throw (M.exception (.notCallable value.typeName))
  tuple_constants (values : List Constant) :
    M.tuple (values.map M.constant) = M.constant (.tuple values)
  getattr_name (receiver : Value) (name : String) :
    M.getattr receiver (M.constant (.str name)) none = M.lookup receiver name

/-- What the machine does with a node and the values of its operands. -/
def operate (M : Machine World Value Thrown) :
    Expression → List Value → Action World Thrown Value
  | .attributeLookup _ _ name, [receiver] => M.lookup receiver name
  | .specialLookup _ _ name, [receiver] => M.specialLookup receiver name
  | .getattr .., [receiver, name] => M.getattr receiver name none
  | .getattr .., [receiver, name, other] => M.getattr receiver name (some other)
  | .setattr .., [receiver, name, new] => M.setattr receiver name new
  | .hasattr .., [receiver, name] => M.hasattr receiver name
  | .constant _ value, _ => pure (M.constant value)
  | .var _ name, _ => pure (M.read name)
  | .call .., [function, positional, keyword] => M.call function positional keyword
  -- Nothing else is operated: every node has as many operands as stand above.
  | _, values => pure (M.tuple values)

/-- The machine as an interpretation of the nodes. -/
def interpretation (M : Machine World Value Thrown) :
    Interpretation (Action World Thrown) Value where
  raise exception := throw (M.exception exception)
  tuple := M.tuple
  operate := M.operate

theorem plain_interpretation (M : Machine World Value Thrown) : M.interpretation.Plain := by
  intro e values hkind
  cases e with
  | constant location value => exact idle_pure _
  | var location name => exact idle_pure _
  | _ => simp [Expression.kind] at hkind

/-- With a literal name, the value of a fallback is not used. -/
def IgnoresFallbacks (M : Machine World Value Thrown) : Prop :=
  ∀ (receiver : Value) (name : String) (fallback : Value),
    M.getattr receiver (M.constant (.str name)) (some fallback) = M.lookup receiver name

end Machine

namespace Expression

variable {World Value Thrown : Type} (M : Machine World Value Thrown)

mutual

/-- What evaluating an expression does. -/
def eval : Expression → Action World Thrown Value
  | .attributeLookup _ source name => do
    let receiver ← eval source
    M.lookup receiver name
  | .specialLookup _ source name => do
    let receiver ← eval source
    M.specialLookup receiver name
  | .getattr _ source selector none => do
    let receiver ← eval source
    let name ← eval selector
    M.getattr receiver name none
  | .getattr _ source selector (some fallback) => do
    let receiver ← eval source
    let name ← eval selector
    let other ← eval fallback
    M.getattr receiver name (some other)
  | .setattr _ source selector value => do
    let receiver ← eval source
    let name ← eval selector
    let new ← eval value
    M.setattr receiver name new
  | .hasattr _ source selector => do
    let receiver ← eval source
    let name ← eval selector
    M.hasattr receiver name
  | .constant _ value => pure (M.constant value)
  | .var _ name => pure (M.read name)
  | .raise _ exception => throw (M.exception exception)
  | .sideEffects _ effects value => do
    let _ ← evalAll effects
    eval value
  | .tuple _ elements => do
    let values ← evalAll elements
    return M.tuple values
  | .call _ called args kw => do
    let function ← eval called
    let positional ← eval args
    let keyword ← eval kw
    M.call function positional keyword

/-- What evaluating expressions one after the other does. -/
def evalAll : List Expression → Action World Thrown (List Value)
  | [] => pure []
  | e :: rest => do
    let value ← eval e
    let values ← evalAll rest
    return value :: values

end

/-- Evaluates expressions one after the other for their effects alone. -/
def execute (es : List Expression) : Action World Thrown Unit := do
  let _ ← evalAll M es

/-! ## Machines as interpretations -/

theorem evalAll_interpretation_of {es : List Expression}
    (h : ∀ e ∈ es, M.interpretation.eval e = e.eval M) :
    M.interpretation.evalAll es = evalAll M es := by
  induction es with
  | nil => rfl
  | cons e rest ih =>
      obtain ⟨he, hrest⟩ := List.forall_mem_cons.1 h
      rw [Interpretation.evalAll, evalAll, he, ih hrest]

/-- Evaluation on a machine is that of its interpretation. -/
theorem eval_interpretation (e : Expression) : M.interpretation.eval e = e.eval M := by
  induction e using childInduction with
  | node e ih =>
      cases e with
      | getattr location source selector fallback =>
          cases fallback <;>
            simp_all [children, Interpretation.eval, eval, Machine.interpretation, Machine.operate]
      | sideEffects location effects value =>
          have heffects := evalAll_interpretation_of M fun c hc => ih c (effect_mem_children hc ..)
          have hvalue := ih value (value_mem_children ..)
          rw [Interpretation.eval, eval, heffects, hvalue]
      | tuple location elements =>
          have helements : M.interpretation.evalAll elements = evalAll M elements :=
            evalAll_interpretation_of M ih
          rw [Interpretation.eval, eval, helements]
          rfl
      | _ =>
          simp_all [children, Interpretation.eval, eval, Machine.interpretation, Machine.operate]

theorem evalAll_interpretation (es : List Expression) :
    M.interpretation.evalAll es = evalAll M es :=
  evalAll_interpretation_of M fun e _ => eval_interpretation M e

theorem execute_interpretation (es : List Expression) :
    M.interpretation.execute es = execute M es := by
  have hexecute := M.interpretation.evalAll_bind es (pure ())
  rw [evalAll_interpretation, bind_pure_unit] at hexecute
  exact hexecute.symm

/-! ## Expressions one after the other

What holds in every interpretation holds of machines. -/

theorem evalAll_bind {α : Type} (es : List Expression) (rest : Action World Thrown α) :
    (do let _ ← evalAll M es; rest) = (do execute M es; rest) := by
  rw [← evalAll_interpretation, ← execute_interpretation, Interpretation.evalAll_bind]

@[simp] theorem execute_nil : execute M [] = pure () := by
  rw [← execute_interpretation, Interpretation.execute_nil]

@[simp] theorem execute_cons (e : Expression) (rest : List Expression) :
    execute M (e :: rest) = (do let _ ← e.eval M; execute M rest) := by
  rw [← execute_interpretation, ← execute_interpretation, ← eval_interpretation,
    Interpretation.execute_cons]

theorem execute_append (as bs : List Expression) :
    execute M (as ++ bs) = (do execute M as; execute M bs) := by
  simp only [← execute_interpretation, Interpretation.execute_append]

theorem evalAll_append (as bs : List Expression) :
    evalAll M (as ++ bs) = (do
      let first ← evalAll M as
      let second ← evalAll M bs
      return first ++ second) := by
  induction as with
  | nil => simp [evalAll]
  | cons e rest ih => simp [evalAll, ih]

theorem eval_sideEffects (location : Location) (effects : List Expression) (value : Expression) :
    (sideEffects location effects value).eval M = (do execute M effects; value.eval M) := by
  rw [← eval_interpretation, ← eval_interpretation, ← execute_interpretation,
    Interpretation.eval_sideEffects]

/-- An expression that is known to raise never gives a value. -/
theorem aborts_eval {e : Expression} (h : e.raises = true) : Action.Aborts (e.eval M) := by
  induction e using childInduction with
  | node e ih =>
      rcases raises_cases h with ⟨location, exception, rfl⟩ | ⟨location, before, value, rfl⟩
      · exact Action.aborts_throw _
      · rw [eval_sideEffects]
        rw [raises_sideEffects, Bool.or_eq_true, List.any_eq_true] at h
        rcases h with ⟨c, hc, hraises⟩ | hraises
        -- The raising effect ends the list in the middle, and the value is never reached.
        · have habort := ih c (effect_mem_children hc ..) hraises
          obtain ⟨first, second, rfl⟩ := List.append_of_mem hc
          rw [execute_append, execute_cons]
          exact (Action.Aborts.of_bind (fun _ => habort.bind _) _).bind _
        · have habort := ih value (value_mem_children ..) hraises
          exact Action.Aborts.of_bind (fun _ => habort) _

/-! ## Effects -/

theorem execute_allEffects (es : List Expression) :
    execute M (allEffects es) = execute M es := by
  rw [← execute_interpretation, ← execute_interpretation,
    Interpretation.execute_allEffects M.plain_interpretation]

/-- A node after dropped expressions does what evaluating these and then the node does. -/
theorem eval_after (node : Expression) (dropped : List Expression) (location : Location) :
    (node.after dropped location).eval M = (do execute M dropped; node.eval M) := by
  rw [← eval_interpretation, ← eval_interpretation, ← execute_interpretation,
    Interpretation.eval_after M.plain_interpretation]

theorem execute_of_effects_eq_nil {es : List Expression} (h : allEffects es = []) :
    execute M es = pure () := by
  rw [← execute_allEffects, h, execute_nil]

theorem evalAll_of_forall_pure {es : List Expression}
    (h : ∀ e ∈ es, ∃ value, e.eval M = pure value) : ∃ values, evalAll M es = pure values := by
  induction es with
  | nil => exact ⟨[], rfl⟩
  | cons e rest ih =>
      obtain ⟨he, hrest⟩ := List.forall_mem_cons.1 h
      obtain ⟨value, hvalue⟩ := he
      obtain ⟨values, hvalues⟩ := ih hrest
      exact ⟨value :: values, by rw [evalAll, hvalue, hvalues, pure_bind, pure_bind]⟩

/-- An expression without effects has its value at once. -/
theorem eval_of_effects_eq_nil {e : Expression} (h : e.effects = []) :
    ∃ value, e.eval M = pure value := by
  induction e using childInduction with
  | node e ih =>
      cases e with
      | constant location value => exact ⟨_, rfl⟩
      | var location name => exact ⟨_, rfl⟩
      | tuple location elements =>
          have helements : ∀ c ∈ elements, c.effects = [] := by
            rwa [effects, allEffects_eq_flatMap, List.flatMap_eq_nil_iff] at h
          obtain ⟨values, hvalues⟩ : ∃ values, evalAll M elements = pure values :=
            evalAll_of_forall_pure M fun c hc => ih c hc (helements c hc)
          exact ⟨M.tuple values, by rw [eval, hvalues, pure_bind]⟩
      | sideEffects location before value =>
          rw [effects, List.append_eq_nil_iff] at h
          obtain ⟨result, hresult⟩ := ih value (value_mem_children ..) h.2
          exact ⟨result, by
            rw [eval_sideEffects, execute_of_effects_eq_nil M h.1, pure_bind, hresult]⟩
      | _ => cases h

/-- Constants one after the other give their values. -/
theorem evalAll_constants {es : List Expression} {values : List Constant}
    (h : es.map constant? = values.map some) : evalAll M es = pure (values.map M.constant) := by
  induction es generalizing values with
  | nil =>
      obtain rfl : values = [] := List.map_eq_nil_iff.1 h.symm
      rfl
  | cons e rest ih =>
      obtain ⟨value, others, rfl, hvalue, hothers⟩ := List.map_eq_cons_iff.1 h.symm
      have hevals : e.eval M = pure (M.constant value) := by
        cases e <;> cases hvalue
        rfl
      rw [evalAll, hevals, ih hothers.symm, pure_bind, pure_bind, List.map_cons]

/-! ## Congruence -/

theorem evalAll_map {f : Expression → Expression} {es : List Expression}
    (h : ∀ e ∈ es, (f e).eval M = e.eval M) : evalAll M (es.map f) = evalAll M es := by
  induction es with
  | nil => rfl
  | cons e rest ih =>
      obtain ⟨he, hrest⟩ := List.forall_mem_cons.1 h
      rw [List.map_cons, evalAll, evalAll, he, ih hrest]

/-- A node over children that evaluate alike evaluates alike. -/
theorem eval_overChildren {f : Expression → Expression} {e : Expression}
    (h : ∀ c ∈ e.children, (f c).eval M = c.eval M) : (e.overChildren f).eval M = e.eval M := by
  cases e with
  | getattr location source selector fallback =>
      cases fallback <;> simp_all [children, eval]
  | sideEffects location effects value =>
      have heffects := evalAll_map M fun c hc => h c (effect_mem_children hc ..)
      have hvalue := h value (value_mem_children ..)
      simp [eval, heffects, hvalue]
  | tuple location elements =>
      have helements : evalAll M (elements.map f) = evalAll M elements := evalAll_map M h
      simp [eval, helements]
  | _ => simp_all [children, eval]

end Expression

/-! ## Machines -/

namespace Machine

variable {World Value Thrown : Type}

/-- The same machine, except that the value of a fallback is not used. -/
def ignoringFallbacks (M : Machine World Value Thrown) : Machine World Value Thrown :=
  { M with getattr := fun receiver name _ => M.getattr receiver name none }

theorem Lawful.ignoringFallbacks {M : Machine World Value Thrown} (h : M.Lawful) :
    M.ignoringFallbacks.Lawful :=
  ⟨h.lookup_value, h.lookup_missing, h.hasattr_constant, h.call_constant, h.tuple_constants,
    h.getattr_name⟩

theorem Lawful.ignoresFallbacks {M : Machine World Value Thrown} (h : M.Lawful) :
    M.ignoringFallbacks.IgnoresFallbacks :=
  fun receiver name _ => h.getattr_name receiver name

end Machine

/-- The values of a machine that keeps a trace: constants, and objects known by what gave them. -/
inductive TracedValue where
  | constant (value : Constant)
  | object (origin : String)

namespace TracedValue

/-- The constant that a value is, if it is one. -/
def constant? : TracedValue → Option Constant
  | .constant value => some value
  | .object _ => none

theorem mapM_constant? (values : List Constant) :
    (values.map TracedValue.constant).mapM constant? = some values := by
  induction values with
  | nil => rfl
  | cons value rest ih => simp [ih, constant?]

end TracedValue

namespace Machine

/-- What is done with an object is noted in the trace, and gives an object in turn. -/
def note (entry : String) : Action (List String) RaisedException TracedValue := do
  modify (· ++ [entry])
  return .object entry

/-- A lookup: on a constant by the tables of attributes, where a method is an object; on an object
    noted in the trace. -/
def tracedLookup (receiver : TracedValue) (name : String) :
    Action (List String) RaisedException TracedValue :=
  match receiver with
  | .constant value =>
    match value.lookupAttribute name with
    | .ok (some folded) => pure (.constant folded)
    | .ok none => pure (.object name)
    | .error exception => throw exception
  | .object origin => note (origin ++ "." ++ name)

/-- A machine whose world is a trace of what was done with objects. A fallback is what it is in the
    compiled program: the value to use where the lookup raises an attribute error. -/
def traced : Machine (List String) TracedValue RaisedException where
  constant := .constant
  exception := id
  read := .object
  tuple values := (values.mapM TracedValue.constant?).elim (.object "tuple") (.constant ∘ .tuple)
  lookup := tracedLookup
  specialLookup _ name := note ("special " ++ name)
  getattr receiver selector fallback :=
    match selector, fallback with
    | .constant (.str name), none => tracedLookup receiver name
    | .constant (.str name), some other =>
      tryCatch (tracedLookup receiver name) fun exception =>
        if exception.cls.derivesFrom .attributeError then pure other else throw exception
    | _, _ => throw ⟨.typeError, "attribute name must be string"⟩
  setattr _ _ _ := note "set"
  hasattr receiver selector :=
    match receiver, selector with
    | .constant value, .constant (.str name) =>
      pure (.constant (.bool (value.hasAttribute name)))
    | _, _ => note "has"
  call function _ _ :=
    match function with
    | .constant value => throw (.notCallable value.typeName)
    | .object origin => note (origin ++ "()")

theorem lawful_traced : traced.Lawful where
  lookup_value h := by simp only [traced, tracedLookup, h]
  lookup_missing h := by simp only [traced, tracedLookup, h, id]
  hasattr_constant _ _ := rfl
  call_constant _ _ _ := rfl
  tuple_constants values := by
    change ((values.map TracedValue.constant).mapM TracedValue.constant?).elim _ _ = _
    rw [TracedValue.mapM_constant?]
    rfl
  getattr_name _ _ := rfl

example :
    let here : Location := ⟨"m.py", 1⟩
    let call (name : String) := Expression.call here (.var here name) (.constant here .emptyTuple)
      (.constant here .emptyDict)
    let raise := Expression.raise here ⟨.keyError, "k"⟩
    ((Expression.tuple here [call "f", raise, call "g"]).eval traced).run.run [] =
      (.error ⟨.keyError, "k"⟩, ["f()"]) := rfl

end Machine

end AttributeOptimizer
