import AttributeOptimizer.Proofs.Sequencing

set_option autoImplicit false

/-! # The exception that an evaluation ends in

Where no operation fails, evaluation goes on to the first node that raises, and ends there. The
exceptions of a tree in the order of evaluation are `Expression.raised`; an evaluation that does not
end in the failure of an operation ends in the first of them, and gives a value if there are none
(`raisesFirst_eval`).

`Expression.alwaysRaises` looks for any of them that belongs to a class. So a tree of which it holds
ends in an exception of that class exactly if the first of its exceptions belongs to it
(`endsIn_iff_of_alwaysRaises`), which is no condition for the class of all exceptions, and fails
where an exception of another class comes first (`later_exception_is_never_raised`). -/

namespace AttributeOptimizer

variable {World Value Thrown : Type}

/-- Why an evaluation gives no value. -/
inductive Abort (Thrown : Type) where
  /-- A node that raises was evaluated. -/
  | raised (exception : RaisedException)
  /-- The operation of another node failed. -/
  | failed (thrown : Thrown)

/-- The interpretation with the given operations, in which nodes raise their own exceptions. -/
def Interpretation.ofOperations (tuple : List Value → Value)
    (operate : Expression → List Value → Action World Thrown Value) :
    Interpretation (Action World (Abort Thrown)) Value where
  raise exception := throw (.raised exception)
  tuple := tuple
  operate e values := ExceptT.adapt .failed (operate e values)

/-! ## The first of some exceptions -/

namespace Action

variable {α β : Type}

/-- Unless an operation fails, the computation raises the first of the exceptions, or gives a result
    if there are none. -/
def RaisesFirst (x : Action World (Abort Thrown) α) (exceptions : List RaisedException) : Prop :=
  ∀ world : World,
    match (x.run.run world).1 with
    | .ok _ => exceptions = []
    | .error (.raised exception) => exceptions.head? = some exception
    | .error (.failed _) => True

theorem raisesFirst_pure (a : α) :
    RaisesFirst (pure a : Action World (Abort Thrown) α) [] :=
  fun _ => rfl

theorem raisesFirst_raised (exception : RaisedException) :
    RaisesFirst (throw (.raised exception) : Action World (Abort Thrown) α) [exception] :=
  fun _ => rfl

theorem raisesFirst_operation (x : Action World Thrown α) :
    RaisesFirst (ExceptT.adapt Abort.failed x) [] := by
  intro world
  rw [ExceptT.run_adapt, StateT.run_map]
  rcases x.run.run world with ⟨value | thrown, world'⟩
  · trivial
  · rfl

/-- One computation after the other raises the first exception of both. -/
theorem RaisesFirst.bind {x : Action World (Abort Thrown) α}
    {f : α → Action World (Abort Thrown) β} {xs ys : List RaisedException}
    (hx : RaisesFirst x xs) (hf : ∀ a, RaisesFirst (f a) ys) : RaisesFirst (x >>= f) (xs ++ ys) := by
  intro world
  have hfirst := hx world
  rw [ExceptT.run_bind, StateT.run_bind]
  rcases hrun : x.run.run world with ⟨(exception | thrown) | a, world'⟩
  · rw [hrun] at hfirst
    have hhead : xs.head? = some exception := hfirst
    change (xs ++ ys).head? = some exception
    rw [List.head?_append, hhead]
    rfl
  · trivial
  · rw [hrun] at hfirst
    obtain rfl : xs = [] := hfirst
    exact hf a world'

theorem raisesFirst_mapM {f : Expression → Action World (Abort Thrown) β}
    {exceptions : Expression → List RaisedException} {es : List Expression}
    (h : ∀ e ∈ es, RaisesFirst (f e) (exceptions e)) :
    RaisesFirst (es.mapM f) (es.flatMap exceptions) := by
  induction es with
  | nil => exact raisesFirst_pure []
  | cons e rest ih =>
      obtain ⟨he, hrest⟩ := List.forall_mem_cons.1 h
      rw [List.mapM_cons, List.flatMap_cons]
      refine he.bind fun value => ?_
      rw [← List.append_nil (rest.flatMap exceptions)]
      exact (ih hrest).bind fun values => raisesFirst_pure _

end Action

namespace Expression

/-! ## The exceptions of a tree -/

/-- The exception that a raising node raises. -/
def exception? : Expression → Option RaisedException
  | .raise _ exception => some exception
  | _ => none

/-- The exceptions that the nodes of a tree raise, in the order of evaluation. -/
def raised (e : Expression) : List RaisedException := e.nodes.filterMap exception?

theorem raised_eq (e : Expression) :
    e.raised = e.exception?.toList ++ e.children.flatMap raised := by
  rw [raised, nodes_eq, List.filterMap_cons, List.filterMap_flatMap]
  cases e.exception? <;> rfl

@[simp] theorem raised_raise (location : Location) (exception : RaisedException) :
    (raise location exception).raised = [exception] :=
  raised_eq _

/-- Where some part that is always evaluated raises an exception of a class, it is one of the
    exceptions of the tree. -/
theorem exists_mem_raised_of_alwaysRaises {e : Expression} {base : ExceptionClass}
    (h : e.alwaysRaises base = true) :
    ∃ exception ∈ e.raised, exception.cls.derivesFrom base = true := by
  induction e using childInduction with
  | node e ih =>
      have hchild : ∀ c ∈ e.children, c.alwaysRaises base = true →
          ∃ exception ∈ e.raised, exception.cls.derivesFrom base = true := by
        intro c hc hraises
        obtain ⟨exception, hmem, hderives⟩ := ih c hc hraises
        refine ⟨exception, ?_, hderives⟩
        rw [raised_eq]
        exact List.mem_append_right _ (List.mem_flatMap.2 ⟨c, hc, hmem⟩)
      cases e with
      | raise location exception => exact ⟨exception, by simp, h⟩
      | sideEffects location effects value =>
          rw [alwaysRaises, anyAlwaysRaises_eq_any, Bool.or_eq_true, List.any_eq_true] at h
          rcases h with ⟨c, hc, hraises⟩ | hraises
          · exact hchild c (effect_mem_children hc ..) hraises
          · exact hchild value (value_mem_children ..) hraises
      | _ => simp [alwaysRaises] at h

/-! ## How evaluation ends -/

/-- Evaluation raises the first exception of the tree, unless an operation fails before. -/
theorem raisesFirst_eval (tuple : List Value → Value)
    (operate : Expression → List Value → Action World Thrown Value) (e : Expression) :
    Action.RaisesFirst ((Interpretation.ofOperations tuple operate).eval e) e.raised := by
  induction e using childInduction with
  | node e ih =>
      have hother (hraise : e.kind ≠ .raise) (heffects : e.kind ≠ .sideEffects)
          (htuple : e.kind ≠ .tuple) (hnone : e.exception? = none) :
          Action.RaisesFirst ((Interpretation.ofOperations tuple operate).eval e) e.raised := by
        rw [Interpretation.eval_eq_operate _ hraise heffects htuple, raised_eq, hnone,
          ← List.append_nil (List.flatMap ..)]
        exact (Action.raisesFirst_mapM ih).bind fun values => Action.raisesFirst_operation _
      cases e with
      | raise location exception =>
          rw [raised_raise]
          exact Action.raisesFirst_raised exception
      | sideEffects location effects value =>
          have hall := Action.raisesFirst_mapM fun c hc => ih c (effect_mem_children hc ..)
          have hvalue := ih value (value_mem_children ..)
          rw [Interpretation.eval, Interpretation.evalAll_eq_mapM, raised_eq]
          simpa [children, exception?] using hall.bind fun _ => hvalue
      | tuple location elements =>
          have helements := Action.raisesFirst_mapM fun c (hc : c ∈ elements) => ih c hc
          rw [Interpretation.eval, Interpretation.evalAll_eq_mapM, raised_eq]
          simpa [children, exception?] using helements.bind fun _ => Action.raisesFirst_pure _
      | _ => exact hother (by simp [kind]) (by simp [kind]) (by simp [kind]) rfl

/-- Every evaluation in which no operation fails ends in an exception with the property. -/
def EndsIn (e : Expression) (p : RaisedException → Prop) : Prop :=
  ∀ ⦃World Value Thrown : Type⦄ (tuple : List Value → Value)
    (operate : Expression → List Value → Action World Thrown Value) (world : World),
    (∀ thrown,
      ((Interpretation.ofOperations tuple operate).ending e world).1 ≠ .error (.failed thrown)) →
    ∃ exception,
      ((Interpretation.ofOperations tuple operate).ending e world).1 = .error (.raised exception) ∧
        p exception

/-- Evaluations of a tree end in the first of its exceptions, if it has any. -/
theorem endsIn_iff {e : Expression} {first : RaisedException}
    (h : e.raised.head? = some first) (p : RaisedException → Prop) : e.EndsIn p ↔ p first := by
  constructor
  · intro hends
    -- Operations that do nothing at all never fail.
    let operate : Expression → List Unit → Action Unit Empty Unit := fun _ _ => pure ()
    let tuple : List Unit → Unit := fun _ => ()
    obtain ⟨exception, hending, hp⟩ := hends tuple operate () fun thrown => thrown.elim
    have hfirst := raisesFirst_eval tuple operate e ()
    rw [Interpretation.ending] at hending
    rw [hending] at hfirst
    obtain rfl : first = exception := Option.some.inj (h.symm.trans hfirst)
    exact hp
  · intro hp World Value Thrown tuple operate world hquiet
    have hfirst := raisesFirst_eval tuple operate e world
    rw [← Interpretation.ending] at hfirst
    rcases hending : ((Interpretation.ofOperations tuple operate).ending e world).1 with
      (exception | thrown) | value
    · rw [hending] at hfirst
      obtain rfl : first = exception := Option.some.inj (h.symm.trans hfirst)
      exact ⟨first, rfl, hp⟩
    · exact absurd hending (hquiet thrown)
    · rw [hending] at hfirst
      have hnone : e.raised = [] := hfirst
      rw [hnone] at h
      cases h

/-- A tree that always raises, as far as some class goes, has a first exception, in which every
    evaluation ends in which no operation fails. So these end in an exception of the class exactly
    if the first one belongs to it; and in some exception in any case. -/
theorem endsIn_iff_of_alwaysRaises {e : Expression} {base : ExceptionClass}
    (h : e.alwaysRaises base = true) :
    ∃ first, e.raised.head? = some first ∧ e.EndsIn (· = first) ∧
      (e.EndsIn (fun exception => exception.cls.derivesFrom base = true) ↔
        first.cls.derivesFrom base = true) ∧
      e.EndsIn (fun exception => exception.cls.derivesFrom .baseException = true) := by
  obtain ⟨exception, hmem, -⟩ := exists_mem_raised_of_alwaysRaises h
  obtain ⟨first, hfirst⟩ : ∃ first, e.raised.head? = some first :=
    Option.isSome_iff_exists.1 (List.isSome_head?.2 (List.ne_nil_of_mem hmem))
  refine ⟨first, hfirst, (endsIn_iff hfirst _).2 rfl, endsIn_iff hfirst _, ?_⟩
  exact (endsIn_iff hfirst _).2 first.cls.derivesFrom_baseException

theorem effect_raises_below_its_class :
    let here : Location := ⟨"m.py", 1⟩
    let e := sideEffects here [var here "x", raise here ⟨.keyError, "k"⟩]
      (raise here ⟨.valueError, "v"⟩)
    e.EndsIn fun exception => exception.cls.derivesFrom .lookupError = true := by
  intro here e
  have hraises : e.alwaysRaises .lookupError = true := rfl
  obtain ⟨first, hfirst, -, hiff, -⟩ := endsIn_iff_of_alwaysRaises hraises
  have hkey : first = ⟨.keyError, "k"⟩ := by
    simp [e, raised_eq (.sideEffects ..), raised_eq (.var ..), exception?, children] at hfirst
    exact hfirst.symm
  exact hiff.2 (hkey ▸ rfl)

/-- An exception that comes after another is found and never raised: the tree is said to raise a
    `KeyError` and ends in a `ValueError`. -/
theorem later_exception_is_never_raised :
    let here : Location := ⟨"m.py", 1⟩
    let e := sideEffects here [raise here ⟨.valueError, "v"⟩] (raise here ⟨.keyError, "k"⟩)
    e.alwaysRaises .keyError = true ∧
      ¬e.EndsIn fun exception => exception.cls.derivesFrom .keyError = true := by
  intro here e
  have hfirst : e.raised.head? = some ⟨.valueError, "v"⟩ := by
    simp [e, raised_eq (.sideEffects ..), exception?, children]
  refine ⟨rfl, ?_⟩
  rw [endsIn_iff hfirst]
  decide

end Expression

end AttributeOptimizer
