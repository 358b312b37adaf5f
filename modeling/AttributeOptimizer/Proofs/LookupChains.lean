import AttributeOptimizer.Proofs.Bookkeeping
import AttributeOptimizer.Proofs.NormalForm

set_option autoImplicit false

/-! # Chains of lookups

A chain stacks lookups, plain ones and such of reserved names, on an expression. A pass works its
way up: every link gets its attempt on what has become of the links below it, so that the tree after
the pass is a fold of attempts over the links (`afterPass_chain`). What the attempts meet
decides the rest: an expression that raises never ceases to (`raises_afterPass`), and every link
above it is given up for it (`attemptLinks_of_raises`); one of which nothing is known keeps all the
links above it (`normal_chain`). -/

namespace AttributeOptimizer

/-- A lookup without its receiver. -/
inductive Link where
  /-- Reads an attribute by its literal name. -/
  | plain (location : Location) (name : String)
  /-- Reads an attribute with a reserved name. -/
  | special (location : Location) (name : String)

namespace Link

/-- The location of the lookup. -/
def location : Link → Location
  | plain location _ | special location _ => location

/-- The lookup on a receiver. -/
def on : Link → Expression → Expression
  | plain location name, receiver => .attributeLookup location receiver name
  | special location name, receiver => .specialLookup location receiver name

/-- The justification for giving up the lookup for a receiver that raises. -/
def reason : Link → String
  | plain .. => "Attribute lookup source raises exception."
  | special .. => "Special attribute lookup source raises exception."

end Link

open Expression

/-! ## Raising is not lost -/

/-- No rule loses the exception of a node: it comes from an effect or from the value, and rules that
    remove effects remove none that raises. -/
theorem Rewrites.raises_of_raises {node replacement : Expression} {tag : ChangeTag}
    {description : String} (h : Rewrites node replacement tag description)
    (hnode : node.raises = true) : replacement.raises = true := by
  cases h with
  | effectRaises _ hraising => exact raises_after hraising _ _
  | @effectsRemoved location effects value hidle =>
      have hquiet : effects.any Expression.raises = false :=
        List.any_eq_false.2 fun e he => by simp [raises_eq_false (hidle e he)]
      rwa [raises_sideEffects, hquiet, Bool.false_or] at hnode
  | @effectsFiltered location effects value hquiet _ _ =>
      have hquiet : effects.any Expression.raises = false :=
        List.any_eq_false.2 fun e he => by simp [hquiet e he]
      rw [raises_sideEffects, hquiet, Bool.false_or] at hnode
      rw [raises_sideEffects, hnode, Bool.or_true]
  | _ => cases hnode

namespace Expression

/-- A pass over a tree that raises leaves one that raises. -/
theorem raises_afterPass {e : Expression} (h : e.raises = true) : e.afterPass.raises = true := by
  induction e using childInduction with
  | node e ih =>
      have hover : (e.overChildren afterPass).raises = true := by
        rcases raises_cases h with
          ⟨location, exception, rfl⟩ | ⟨location, effects, value, rfl⟩
        · exact h
        · rw [raises_sideEffects, Bool.or_eq_true, List.any_eq_true] at h
          rw [overChildren_sideEffects, raises_sideEffects, Bool.or_eq_true, List.any_eq_true]
          rcases h with ⟨c, hc, hraises⟩ | hraises
          · exact Or.inl ⟨c.afterPass, List.mem_map_of_mem hc,
              ih c (effect_mem_children hc ..) hraises⟩
          · exact Or.inr (ih value (value_mem_children ..) hraises)
      rcases afterPass_cases e with ⟨hsame, -⟩ | ⟨tag, description, hrewrites⟩
      · rw [hsame]
        exact hover
      · exact hrewrites.raises_of_raises hover

/-! ## A pass over a chain -/

/-- Lookups stacked on an expression, the first link next to it. -/
def chain (e : Expression) (links : List Link) : Expression :=
  links.foldl (fun receiver link => link.on receiver) e

/-- What attempts at the links of a chain leave, one after the other, each link on what the attempts
    below it have left. -/
def attemptLinks (e : Expression) (links : List Link) : Expression :=
  links.foldl (fun result link => (link.on result).afterAttempt) e

@[simp] theorem chain_cons (e : Expression) (link : Link) (rest : List Link) :
    e.chain (link :: rest) = (link.on e).chain rest := rfl

@[simp] theorem attemptLinks_cons (e : Expression) (link : Link) (rest : List Link) :
    e.attemptLinks (link :: rest) = (link.on e).afterAttempt.attemptLinks rest := rfl

theorem attemptLinks_append (e : Expression) (before rest : List Link) :
    e.attemptLinks (before ++ rest) = (e.attemptLinks before).attemptLinks rest :=
  List.foldl_append

section Link

variable (link : Link) (e : Expression)

@[simp] theorem children_on : (link.on e).children = [e] := by
  cases link <;> rfl

@[simp] theorem location_on : (link.on e).location = link.location := by
  cases link <;> rfl

@[simp] theorem overChildren_on (f : Expression → Expression) :
    (link.on e).overChildren f = link.on (f e) := by
  cases link <;> rfl

theorem raises_on : (link.on e).raises = false := by
  cases link <;> rfl

theorem isConstant_on : (link.on e).isConstant = false := by
  cases link <;> rfl

theorem afterPass_on : (link.on e).afterPass = (link.on e.afterPass).afterAttempt := by
  rw [afterPass_eq, overChildren_on]

theorem attempts_on : (link.on e).attempts = e.attempts ++ [link.on e.afterPass] := by
  rw [attempts_eq, children_on, overChildren_on, List.flatMap_singleton]

end Link

/-- A pass makes its attempts at the links on what it leaves of the bottom. -/
theorem afterPass_chain (e : Expression) (links : List Link) :
    (e.chain links).afterPass = e.afterPass.attemptLinks links := by
  induction links generalizing e with
  | nil => rfl
  | cons link rest ih => rw [chain_cons, ih, afterPass_on, attemptLinks_cons]

/-! ## Chains on an expression that raises -/

theorem rewrites_on {e : Expression} (h : e.raises = true) (link : Link) :
    Rewrites (link.on e) e .exceptionPropagated link.reason := by
  cases link with
  | plain location name => exact .lookupRaises h
  | special location name => exact .specialLookupRaises h

theorem attemptLinks_of_raises {e : Expression} (h : e.raises = true) (links : List Link) :
    e.attemptLinks links = e := by
  induction links with
  | nil => rfl
  | cons link rest ih => rw [attemptLinks_cons, afterAttempt_of_rewrites (rewrites_on h link), ih]

/-- Once the pass has found that the bottom raises, every link meets the same receiver. -/
theorem attempts_chain_of_raises {e : Expression} (h : e.afterPass.raises = true)
    (links : List Link) :
    (e.chain links).attempts = e.attempts ++ links.map fun link => link.on e.afterPass := by
  induction links generalizing e with
  | nil => simp [chain]
  | cons link rest ih =>
      -- Above the link the same is known as below it, though the link itself does not raise.
      have hlink : (link.on e).afterPass = e.afterPass := by
        rw [afterPass_on, afterAttempt_of_rewrites (rewrites_on h link)]
      have hraises : (link.on e).afterPass.raises = true := by rwa [hlink]
      rw [chain_cons, ih hraises, hlink, attempts_on, List.append_assoc]
      rfl

theorem filterMap_change?_on {e : Expression} (h : e.raises = true) (links : List Link) :
    (links.map fun link => link.on e).filterMap change? =
      links.map fun link => (.exceptionPropagated, link.location, link.reason) := by
  induction links with
  | nil => rfl
  | cons link rest ih =>
      rw [List.map_cons, filterMap_change?_cons, ih, change?_of_rewrites (rewrites_on h link),
        location_on]
      rfl

/-- A pass over a tree that raises leaves one that raises, and no run ever loses the exception.
    Lookups stacked on the tree, of either kind and of any names, are given up for it: a pass over
    the chain leaves the very tree that a pass over its bottom leaves, and to the changes of the
    bottom it adds one propagated exception for each link, from the bottom upwards. A run over the
    chain therefore ends with the tree of a run over the bottom. -/
theorem raising_tree_short_circuits_lookups {tree : Expression} (h : tree.raises = true) :
    (∀ j : Journal, ∃ once j', tree.pass.run j = .ok (once, j') ∧ once.raises = true ∧
      ∀ links : List Link, ∃ j'', (tree.chain links).pass.run j = .ok (once, j'') ∧
        j'.TakesDown
          (links.map fun link => (.exceptionPropagated, link.location, link.reason)) j'') ∧
    ∀ settings : Settings, ∃ o, optimize settings tree = .ok o ∧ o.tree.raises = true ∧
      (1 ≤ settings.maxPasses → ∀ links : List Link,
        ∃ o', optimize settings (tree.chain links) = .ok o' ∧ o'.tree = o.tree) := by
  have hraises : tree.afterPass.raises = true := raises_afterPass h
  have hchain : ∀ links, (tree.chain links).afterPass = tree.afterPass := by
    intro links
    rw [afterPass_chain, attemptLinks_of_raises hraises]
  constructor
  · intro j
    refine ⟨tree.afterPass, _, pass_run tree j, hraises, fun links => ?_⟩
    have hrun := pass_run (tree.chain links) j
    rw [hchain, attempts_chain_of_raises hraises, Journal.attemptAll_append] at hrun
    refine ⟨_, hrun, ?_⟩
    rw [← filterMap_change?_on hraises links]
    exact Journal.takesDown_attemptAll _ _
  · intro settings
    refine ⟨tree.outcome settings, optimize_eq settings tree, ?_, ?_⟩
    · exact tree_outcomeFrom (p := fun e => e.raises = true) (fun _ => raises_afterPass) h _ _ _
    · intro hpasses links
      obtain ⟨left, hleft⟩ := Nat.exists_eq_add_of_le' hpasses
      refine ⟨_, optimize_eq settings (tree.chain links), ?_⟩
      rw [outcome, outcome, tree_outcomeFrom_eq_iterate, tree_outcomeFrom_eq_iterate, hleft,
        Function.iterate_succ_apply, Function.iterate_succ_apply, hchain]

/-- The exception is raised by an effect of an effect, after which others would come: two changes
    bring it up, and two more give up the lookups. -/
theorem nested_raise_short_circuits :
    let here : Location := ⟨"m.py", 1⟩
    let stop := raise here ⟨.keyError, "k"⟩
    let inner := sideEffects here [var here "x", stop] (var here "y")
    let tree := sideEffects here
      [constant here (.int 1), inner, attributeLookup here (var here "z") "run"] (var here "w")
    let links := [Link.special here "__len__", Link.plain here "count"]
    tree.raises = true ∧
      (∃ once j' j'', tree.pass.run (Journal.new true) = .ok (once, j') ∧ once.raises = true ∧
        (tree.chain links).pass.run (Journal.new true) = .ok (once, j'') ∧
        j'.changesInPass = 2 ∧ j''.changesInPass = 4) ∧
      ∃ o o', optimize .standard tree = .ok o ∧ optimize .standard (tree.chain links) = .ok o' ∧
        o'.tree = o.tree := by
  intro here stop inner tree links
  have hraises : tree.raises = true := rfl
  obtain ⟨hpass, hrun⟩ := raising_tree_short_circuits_lookups hraises
  obtain ⟨once, j', hbottom, honce, hlinks⟩ := hpass (Journal.new true)
  obtain ⟨j'', hchain, htaken⟩ := hlinks links
  have hcount : j'.changesInPass = 2 := by
    cases hbottom
    rfl
  obtain ⟨o, ho, -, hsame⟩ := hrun .standard
  obtain ⟨o', ho', htree⟩ := hsame (by decide) links
  refine ⟨hraises, ⟨once, j', j'', hbottom, honce, hchain, hcount, ?_⟩, o, o', ho, ho', htree⟩
  rw [htaken.changesInPass, hcount]
  rfl

/-! ## Chains on an expression of which nothing is known -/

/-- No rule applies to a lookup on something that neither raises nor is a constant. -/
theorem terminal_on {e : Expression} (hquiet : e.raises = false)
    (hconstant : e.isConstant = false) (link : Link) : (link.on e).Terminal := by
  cases link with
  | plain location name =>
      refine ⟨hquiet, ?_⟩
      rintro place value rfl
      cases hconstant
  | special location name => exact hquiet

theorem normal_chain {e : Expression} (h : e.Normal) (hquiet : e.raises = false)
    (hconstant : e.isConstant = false) (links : List Link) : (e.chain links).Normal := by
  induction links generalizing e with
  | nil => exact h
  | cons link rest ih =>
      have hlink : (link.on e).Normal :=
        normal_iff.2 ⟨terminal_on hquiet hconstant link, by simpa using h⟩
      exact ih hlink (raises_on link e) (isConstant_on link e)

end Expression

end AttributeOptimizer
