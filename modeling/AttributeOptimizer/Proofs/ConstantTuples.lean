import AttributeOptimizer.Expression.Display
import AttributeOptimizer.Expression.Queries
import AttributeOptimizer.Proofs.Bookkeeping
import AttributeOptimizer.Proofs.NormalForm
import Mathlib.Data.List.Forall2
import Mathlib.Data.List.Perm.Basic

set_option autoImplicit false

/-! # Tuples of constants

A tree of tuples over constants stands for one constant, the tuple that is nested as the tree is
(`Expression.literal?`). Since a pass goes from the bottom up, it makes that constant of the whole
tree (`afterPass_literal`), with one change for each tuple on the way (`changeLog_perm_tupleFolds`).

The constant reads as the tree did (`text_literal`): the printers of constants and of trees are two
functions, which agree on literals at every depth and for every number of elements. -/

namespace AttributeOptimizer

namespace Expression

/-! ## Literals -/

mutual

/-- The constant that a tree of tuples over constants stands for; nothing for any other tree. -/
def literal? : Expression → Option Constant
  | .constant _ value => some value
  | .tuple _ elements => (literals? elements).map .tuple
  | _ => none

/-- The constants that the trees of a list stand for, if each of them stands for one. -/
def literals? : List Expression → Option (List Constant)
  | [] => some []
  | e :: rest =>
    match literal? e, literals? rest with
    | some value, some values => some (value :: values)
    | _, _ => none

end

theorem literals?_eq_some_iff {es : List Expression} {values : List Constant} :
    literals? es = some values ↔
      List.Forall₂ (fun e value => e.literal? = some value) es values := by
  induction es generalizing values with
  | nil => simp [literals?, eq_comm]
  | cons e rest ih =>
      simp only [List.forall₂_cons_left_iff, literals?, ← ih]
      cases e.literal? <;> cases literals? rest <;> simp [eq_comm]

theorem exists_literals? {es : List Expression} (h : ∀ e ∈ es, ∃ value, e.literal? = some value) :
    ∃ values, literals? es = some values := by
  induction es with
  | nil => exact ⟨[], rfl⟩
  | cons e rest ih =>
      obtain ⟨⟨value, hvalue⟩, hrest⟩ := List.forall_mem_cons.1 h
      obtain ⟨values, hvalues⟩ := ih hrest
      exact ⟨value :: values, by rw [literals?, hvalue, hvalues]⟩

/-- A tree of nothing but tuples and constants is a literal. -/
theorem exists_literal? {e : Expression}
    (h : ∀ n ∈ e.nodes, n.kind = .tuple ∨ n.kind = .constant) :
    ∃ value, e.literal? = some value := by
  induction e using childInduction with
  | node e ih =>
      obtain ⟨hroot, hchildren⟩ := forall_mem_nodes.1 h
      cases e with
      | constant location value => exact ⟨value, rfl⟩
      | tuple location elements =>
          obtain ⟨values, hvalues⟩ : ∃ values, literals? elements = some values :=
            exists_literals? fun c hc => ih c hc (hchildren c hc)
          exact ⟨.tuple values, congrArg (Option.map Constant.tuple) hvalues⟩
      | _ => simp [kind] at hroot

/-- What holds of constants, and of a tuple if it holds of its elements, holds of every literal with
    the constant that it stands for. -/
@[elab_as_elim]
theorem literalInduction {motive : Expression → Constant → Prop}
    (constant : ∀ location value, motive (constant location value) value)
    (tuple : ∀ location elements values,
      List.Forall₂ (fun e value => e.literal? = some value) elements values →
      List.Forall₂ motive elements values → motive (tuple location elements) (.tuple values))
    {e : Expression} {value : Constant} (h : e.literal? = some value) : motive e value := by
  induction e using childInduction generalizing value with
  | node e ih =>
      cases e with
      | constant location held =>
          obtain rfl := Option.some.inj h
          exact constant location held
      | tuple location elements =>
          obtain ⟨values, hvalues, rfl⟩ := Option.map_eq_some_iff.1 h
          have hliterals := literals?_eq_some_iff.1 hvalues
          refine tuple location elements values hliterals ?_
          refine ((List.forall₂_and_left _ _).2 ⟨ih, hliterals⟩).imp ?_
          rintro c folded ⟨hmotive, hliteral⟩
          exact hmotive hliteral
      | _ => cases h

theorem map_eq_map_of_forall₂ {α : Type} {f : Expression → α} {g : Constant → α}
    {es : List Expression} {values : List Constant}
    (h : List.Forall₂ (fun e value => f e = g value) es values) : es.map f = values.map g := by
  rwa [← List.forall₂_eq_eq_eq, List.forall₂_map_left_iff, List.forall₂_map_right_iff]

/-! ## What a literal and its constant have in common -/

/-- The constant that a literal stands for is shown as the literal is. -/
theorem text_literal {e : Expression} {value : Constant} (h : e.literal? = some value) :
    e.text = value.text := by
  refine literalInduction ?constant ?tuple h
  case constant =>
    intro location value
    rfl
  case tuple =>
    intro location elements values hliterals ih
    have htexts : texts elements = Constant.elementTexts values := by
      rw [texts_eq_map, Constant.elementTexts_eq_map]
      exact map_eq_map_of_forall₂ ih
    show "(" ++ ", ".intercalate (texts elements) ++ (if elements.length = 1 then ",)" else ")") =
      "(" ++ ", ".intercalate (Constant.elementTexts values) ++
        (if values.length = 1 then ",)" else ")")
    rw [htexts, hliterals.length_eq]

theorem iterableWith?_literal {e : Expression} {value : Constant} (h : e.literal? = some value)
    (place : Location) (count : Nat) :
    (constant place value).iterableWith? count = e.iterableWith? count := by
  refine literalInduction ?constant ?tuple h
  case constant =>
    intro location value
    cases value <;> rfl
  case tuple =>
    intro location elements values hliterals _
    show some (values.length == count) = some (elements.length == count)
    rw [hliterals.length_eq]

/-! ## A pass over a literal -/

/-- Over the constants that a pass makes of its elements, a tuple folds. -/
theorem rewrites_tuple_of_literals (location : Location) {elements : List Expression}
    {values : List Constant}
    (h : List.Forall₂ (fun e value => e.afterPass = constant e.location value) elements values) :
    Rewrites ((tuple location elements).overChildren afterPass)
      (constant location (.tuple values)) .constantFolded
      "Tuple with constant elements pre-computed." := by
  refine .tupleFolds ?_
  rw [List.map_map]
  refine map_eq_map_of_forall₂ (h.imp ?_)
  intro e value hafter
  show e.afterPass.constant? = some value
  rw [hafter]
  rfl

/-- A pass makes of a literal the constant that it stands for. -/
theorem afterPass_literal {e : Expression} {value : Constant} (h : e.literal? = some value) :
    e.afterPass = constant e.location value := by
  refine literalInduction ?constant ?tuple h
  case constant =>
    intro location value
    exact afterPass_of_normal (normal_constant location value)
  case tuple =>
    intro location elements values _ ih
    rw [afterPass_eq]
    exact afterAttempt_of_rewrites (rewrites_tuple_of_literals location ih)

/-- The change of a tuple to a constant. -/
def tupleFold (node : Expression) : ChangeTag × Location × String :=
  (.constantFolded, node.location, "Tuple with constant elements pre-computed.")

/-- A change for each tuple of a tree. -/
def tupleFolds (e : Expression) : List (ChangeTag × Location × String) :=
  (e.nodes.filter fun n => n.kind = .tuple).map tupleFold

theorem tupleFolds_tuple (location : Location) (elements : List Expression) :
    (tuple location elements).tupleFolds =
      (tuple location elements).tupleFold :: elements.flatMap tupleFolds := by
  rw [tupleFolds, nodes_eq, List.filter_cons_of_pos rfl, List.map_cons, List.filter_flatMap,
    List.map_flatMap]
  rfl

/-- A pass over a literal reports one change for each tuple. It reports them from the bottom up,
    whereas the nodes of a tree are listed from the top down. -/
theorem changeLog_perm_tupleFolds {e : Expression} {value : Constant}
    (h : e.literal? = some value) : e.changeLog.Perm e.tupleFolds := by
  refine literalInduction ?constant ?tuple h
  case constant =>
    intro location value
    rw [changeLog_eq_nil_iff.2 (normal_constant location value), tupleFolds, nodes_eq]
    rfl
  case tuple =>
    intro location elements values hliterals ih
    have hafter := hliterals.imp fun _ _ => afterPass_literal
    have hperm : ∀ c ∈ elements, c.changeLog.Perm c.tupleFolds :=
      ((List.forall₂_and_left elements values).1 (ih.imp fun _ _ h => ⟨h, trivial⟩)).1
    rw [changeLog_eq, change?_of_rewrites (rewrites_tuple_of_literals location hafter),
      tupleFolds_tuple]
    exact List.perm_append_comm.trans ((List.Perm.flatMap_left elements hperm).cons _)

/-- One pass over a tree of nothing but tuples and constants leaves a single constant at the
    location of the root, the tuple that is nested as the tree is. It takes down one change for each
    tuple of the tree and none besides. The constant is shown as the tree was, and of both is known
    alike whether they can be iterated over with some number of elements. -/
theorem constant_tuple_folds {tree : Expression}
    (hnodes : ∀ n ∈ tree.nodes, n.kind = .tuple ∨ n.kind = .constant) (j : Journal) :
    ∃ value changes j', tree.literal? = some value ∧
      tree.pass.run j = .ok (constant tree.location value, j') ∧
      j.TakesDown changes j' ∧ changes.Perm tree.tupleFolds ∧
      (constant tree.location value).text = tree.text ∧
      ∀ count, (constant tree.location value).iterableWith? count = tree.iterableWith? count := by
  obtain ⟨value, hvalue⟩ := exists_literal? hnodes
  refine ⟨value, tree.changeLog, _, hvalue, ?_, j.takesDown_attemptAll tree.attempts,
    changeLog_perm_tupleFolds hvalue, (text_literal hvalue).symm,
    iterableWith?_literal hvalue tree.location⟩
  rw [pass_run, afterPass_literal hvalue]

/-- Tuples of one element and of none, in a tuple beside a constant that is a tuple already, take
    three changes. -/
theorem short_tuples_fold :
    let place (line : UInt32) : Location := ⟨"m.py", line⟩
    let tree := tuple (place 1) [tuple (place 2) [], tuple (place 3) [constant (place 4) .none],
      constant (place 5) (.tuple [.bool true])]
    let folded := constant (place 1) (.tuple [.tuple [], .tuple [.none], .tuple [.bool true]])
    ∃ changes j', tree.pass.run (.new true) = .ok (folded, j') ∧
      (Journal.new true).TakesDown changes j' ∧
      changes.Perm (([1, 2, 3].map place).map fun location =>
        (.constantFolded, location, "Tuple with constant elements pre-computed.")) ∧
      folded.text = tree.text ∧ tree.text = "((), (None,), (True,))" ∧
      folded.iterableWith? 3 = tree.iterableWith? 3 := by
  intro place tree folded
  have hnodes : ∀ n ∈ tree.nodes, n.kind = .tuple ∨ n.kind = .constant := by
    simp [tree, nodes_eq, children, kind]
  obtain ⟨value, changes, j', hvalue, hrun, htaken, hperm, htext, hiterable⟩ :=
    constant_tuple_folds hnodes (.new true)
  obtain rfl : .tuple [.tuple [], .tuple [.none], .tuple [.bool true]] = value :=
    Option.some.inj hvalue
  refine ⟨changes, j', hrun, htaken, ?_, htext, rfl, hiterable 3⟩
  simpa [tree, tupleFolds, tupleFold, nodes_eq, children, kind, location] using hperm

end Expression

end AttributeOptimizer
