import AttributeOptimizer.Defect
import AttributeOptimizer.Expression.Basic

set_option autoImplicit false

/-! # Children of expressions

Children are reached by role or all at once, in evaluation order. A function on children says of
each whether it keeps the very node or puts another in its place, as a `Revision`; a node is rebuilt
only when some child is replaced, so a walk that changes nothing hands every node back as it was.

* `Expression.child?` and `Expression.childSequence` read one role, `Expression.withChild` replaces
  the child in it;
* `Expression.mapChildren` visits all children and relinks the node;
* `Expression.bottomUp` visits a whole tree, each node after its children. -/

namespace AttributeOptimizer

/-- What a visit leaves in the place of a node. -/
inductive Revision where
  /-- The very node stays. -/
  | kept
  /-- Another node takes its place. -/
  | replaced (node : Expression)

namespace Revision

/-- The node that stands in the place of `before` afterwards. -/
def node (before : Expression) : Revision → Expression
  | kept => before
  | replaced node => node

/-- Whether the very node stays. -/
def isKept : Revision → Bool
  | kept => true
  | replaced _ => false

@[simp] theorem node_kept (before : Expression) : kept.node before = before := rfl

@[simp] theorem node_replaced (before node : Expression) :
    (replaced node).node before = node := rfl

end Revision

namespace Expression

/-! ## By role -/

/-- The defect of asking a node for a role its kind does not have. -/
def noSuchRole (e : Expression) (role : Role) : Defect :=
  .noSuchRole e.kind role e.location

/-- The child in a role that holds one, or nothing where the role is optional and empty. -/
def child? (e : Expression) (role : Role) : Except Defect (Option Expression) :=
  match e, role with
  | .attributeLookup _ source _, .source
  | .specialLookup _ source _, .source
  | .getattr _ source _ _, .source
  | .setattr _ source _ _, .source
  | .hasattr _ source _, .source => .ok (some source)
  | .getattr _ _ selector _, .selector
  | .setattr _ _ selector _, .selector
  | .hasattr _ _ selector, .selector => .ok (some selector)
  | .getattr _ _ _ fallback, .default => .ok fallback
  | .setattr _ _ _ value, .value => .ok (some value)
  | .sideEffects _ _ value, .expression => .ok (some value)
  | .call _ called _ _, .called => .ok (some called)
  | .call _ _ args _, .args => .ok (some args)
  | .call _ _ _ kw, .kw => .ok (some kw)
  | e, role => .error (e.noSuchRole role)

/-- The children in a role that holds any number of them. -/
def childSequence (e : Expression) (role : Role) : Except Defect (List Expression) :=
  match e, role with
  | .sideEffects _ effects _, .sideEffects => .ok effects
  | .tuple _ elements, .elements => .ok elements
  | e, role => .error (e.noSuchRole role)

/-- The node with the child in a role replaced, or supplied where the role was empty. -/
def withChild (e : Expression) (role : Role) (child : Expression) : Except Defect Expression :=
  match e, role with
  | .attributeLookup location _ name, .source => .ok (.attributeLookup location child name)
  | .specialLookup location _ name, .source => .ok (.specialLookup location child name)
  | .getattr location _ selector fallback, .source =>
    .ok (.getattr location child selector fallback)
  | .setattr location _ selector value, .source => .ok (.setattr location child selector value)
  | .hasattr location _ selector, .source => .ok (.hasattr location child selector)
  | .getattr location source _ fallback, .selector =>
    .ok (.getattr location source child fallback)
  | .setattr location source _ value, .selector => .ok (.setattr location source child value)
  | .hasattr location source _, .selector => .ok (.hasattr location source child)
  | .getattr location source selector _, .default =>
    .ok (.getattr location source selector (some child))
  | .setattr location source selector _, .value =>
    .ok (.setattr location source selector child)
  | .sideEffects location effects _, .expression => .ok (.sideEffects location effects child)
  | .call location _ args kw, .called => .ok (.call location child args kw)
  | .call location called _ kw, .args => .ok (.call location called child kw)
  | .call location called args _, .kw => .ok (.call location called args child)
  | e, role => .error (e.noSuchRole role)

/-! ## All at once -/

/-- The children that are present, in evaluation order. -/
def children : Expression → List Expression
  | .attributeLookup _ source _ | .specialLookup _ source _ => [source]
  | .getattr _ source selector fallback => source :: selector :: fallback.toList
  | .setattr _ source selector value => [source, selector, value]
  | .hasattr _ source selector => [source, selector]
  | .constant .. | .var .. | .raise .. => []
  | .sideEffects _ effects value => effects ++ [value]
  | .tuple _ elements => elements
  | .call _ called args kw => [called, args, kw]

/-- The node with its children replaced, in evaluation order, by as many others. A list that does
    not fit the node leaves it as it is. -/
def withChildren (e : Expression) (children : List Expression) : Expression :=
  match e, children with
  | .attributeLookup location _ name, [source] => .attributeLookup location source name
  | .specialLookup location _ name, [source] => .specialLookup location source name
  | .getattr location _ _ none, [source, selector] => .getattr location source selector none
  | .getattr location _ _ (some _), [source, selector, fallback] =>
    .getattr location source selector (some fallback)
  | .setattr location _ _ _, [source, selector, value] => .setattr location source selector value
  | .hasattr location _ _, [source, selector] => .hasattr location source selector
  | .sideEffects location effects value, children =>
    match children.splitAt effects.length with
    | (effects, [value]) => .sideEffects location effects value
    | _ => .sideEffects location effects value
  | .tuple location _, elements => .tuple location elements
  | .call location _ _ _, [called, args, kw] => .call location called args kw
  | e, _ => e

/-- The node after its children were revised: the very node if they were all kept. -/
def revise (e : Expression) (revisions : List Revision) : Revision :=
  if revisions.all Revision.isKept then .kept
  else .replaced (e.withChildren (e.children.zipWith (fun c r => r.node c) revisions))

section Relinking

variable {m : Type → Type} [Monad m]

/-- What a visit makes of a child. The flag is raised if another node takes its place. -/
def relink (visit : Expression → m Revision) (child : Expression) : StateT Bool m Expression := do
  let revision ← visit child
  unless revision.isKept do set true
  return revision.node child

/-- The node over what visits in evaluation order make of its children. -/
def relinkChildren (visit : Expression → m Revision) : Expression → StateT Bool m Expression
  | .attributeLookup location source name => do
    return .attributeLookup location (← relink visit source) name
  | .specialLookup location source name => do
    return .specialLookup location (← relink visit source) name
  | .getattr location source selector fallback => do
    return .getattr location (← relink visit source) (← relink visit selector)
      (← fallback.mapM (relink visit))
  | .setattr location source selector value => do
    return .setattr location (← relink visit source) (← relink visit selector)
      (← relink visit value)
  | .hasattr location source selector => do
    return .hasattr location (← relink visit source) (← relink visit selector)
  | e@(.constant ..) | e@(.var ..) | e@(.raise ..) => return e
  | .sideEffects location effects value => do
    return .sideEffects location (← effects.mapM (relink visit)) (← relink visit value)
  | .tuple location elements => do
    return .tuple location (← elements.mapM (relink visit))
  | .call location called args kw => do
    return .call location (← relink visit called) (← relink visit args) (← relink visit kw)

/-- Visits the children in evaluation order. The very node stays if they all do. -/
def mapChildren (visit : Expression → m Revision) (e : Expression) : m Revision := do
  let (relinked, changed) ← (relinkChildren visit e).run false
  return if changed then .replaced relinked else .kept

end Relinking

/-- Visits a node that is relinked to its revised children. -/
def settle {m : Type → Type} [Monad m] (visit : Expression → m Revision) (e : Expression)
    (revisions : List Revision) : m Revision := do
  let relinked := e.revise revisions
  match ← visit (relinked.node e) with
  | .kept => return relinked
  | .replaced node => return .replaced node

mutual

/-- Visits a whole tree in evaluation order, every node after its children and relinked to what the
    visits left of them. -/
def bottomUp {m : Type → Type} [Monad m] (visit : Expression → m Revision) :
    Expression → m Revision
  | .attributeLookup location source name => do
    settle visit (.attributeLookup location source name) [← bottomUp visit source]
  | .specialLookup location source name => do
    settle visit (.specialLookup location source name) [← bottomUp visit source]
  | .getattr location source selector none => do
    settle visit (.getattr location source selector none)
      [← bottomUp visit source, ← bottomUp visit selector]
  | .getattr location source selector (some fallback) => do
    settle visit (.getattr location source selector (some fallback))
      [← bottomUp visit source, ← bottomUp visit selector, ← bottomUp visit fallback]
  | .setattr location source selector value => do
    settle visit (.setattr location source selector value)
      [← bottomUp visit source, ← bottomUp visit selector, ← bottomUp visit value]
  | .hasattr location source selector => do
    settle visit (.hasattr location source selector)
      [← bottomUp visit source, ← bottomUp visit selector]
  | .constant location value => settle visit (.constant location value) []
  | .var location name => settle visit (.var location name) []
  | .raise location exception => settle visit (.raise location exception) []
  | .sideEffects location effects value => do
    let effectRevisions ← bottomUpAll visit effects
    let valueRevision ← bottomUp visit value
    settle visit (.sideEffects location effects value) (effectRevisions ++ [valueRevision])
  | .tuple location elements => do
    settle visit (.tuple location elements) (← bottomUpAll visit elements)
  | .call location called args kw => do
    settle visit (.call location called args kw)
      [← bottomUp visit called, ← bottomUp visit args, ← bottomUp visit kw]

/-- Visits whole trees, one after the other. -/
def bottomUpAll {m : Type → Type} [Monad m] (visit : Expression → m Revision) :
    List Expression → m (List Revision)
  | [] => return []
  | e :: rest => do
    let revision ← bottomUp visit e
    let revisions ← bottomUpAll visit rest
    return revision :: revisions

end

theorem bottomUpAll_eq_mapM {m : Type → Type} [Monad m] [LawfulMonad m]
    (visit : Expression → m Revision) (es : List Expression) :
    bottomUpAll visit es = es.mapM (bottomUp visit) := by
  induction es with
  | nil => simp [bottomUpAll]
  | cons e rest ih => simp [bottomUpAll, ih]

end Expression

end AttributeOptimizer
