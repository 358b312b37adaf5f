import AttributeOptimizer.Proofs.RoundTrip
import AttributeOptimizer.Sample

set_option autoImplicit false

/-! # The trees that samples stand for

Samples are written apart from trees. A sample is sound if it names known classes of exceptions and
has finite floats only; then its document is that of the tree it stands for (`Sample.toJson_tree`),
which makes it a spelling that is read as just this tree. -/

namespace AttributeOptimizer

/-! ## Constants -/

namespace SampleConstant

mutual

/-- The constant that a sample stands for. -/
def constant : SampleConstant → Constant
  | .none => .none
  | .bool value => .bool value
  | .int value => .int value
  | .float value => .float value
  | .str value => .str value
  | .tuple elements => .tuple (constants elements)
  | .emptyDict => .emptyDict
  | .ellipsis => .ellipsis

/-- The constants that samples stand for. -/
def constants : List SampleConstant → List Constant
  | [] => []
  | c :: rest => constant c :: constants rest

end

mutual

/-- Whether all floats are finite. -/
def isSound : SampleConstant → Bool
  | .float value => value.isFinite
  | .tuple elements => areSound elements
  | _ => true

/-- Whether all floats of all of them are finite. -/
def areSound : List SampleConstant → Bool
  | [] => true
  | c :: rest => isSound c && areSound rest

end

mutual

/-- A constant is written as what it stands for. -/
theorem toJson_constant (c : SampleConstant) : c.constant.toJson = c.toJson := by
  cases c with
  | tuple elements => rw [constant, Constant.toJson, toJson, elementsToJson_constants]
  | _ => rfl

theorem elementsToJson_constants (cs : List SampleConstant) :
    Constant.elementsToJson (constants cs) = listToJson cs := by
  cases cs with
  | nil => rfl
  | cons c cs => rw [constants, Constant.elementsToJson, listToJson, toJson_constant,
      elementsToJson_constants]

end

mutual

theorem finite_constant {c : SampleConstant} (h : c.isSound = true) :
    ∀ x ∈ c.constant.floats, x.isFinite = true := by
  cases c with
  | float value => exact List.forall_mem_singleton.2 h
  | tuple elements => exact finite_constants h
  | _ => exact List.forall_mem_nil _

theorem finite_constants {cs : List SampleConstant} (h : areSound cs = true) :
    ∀ x ∈ Constant.elementsFloats (constants cs), x.isFinite = true := by
  cases cs with
  | nil => exact List.forall_mem_nil _
  | cons c cs =>
      obtain ⟨hc, hcs⟩ := Bool.and_eq_true_iff.1 h
      exact List.forall_mem_append.2 ⟨finite_constant hc, finite_constants hcs⟩

end

end SampleConstant

/-! ## Trees -/

namespace Sample

mutual

/-- The tree that a sample stands for; a class of exceptions with no known name is the root class. -/
def tree : Sample → Expression
  | .attributeLookup line source name => .attributeLookup ⟨file, line⟩ (tree source) name
  | .specialLookup line source name => .specialLookup ⟨file, line⟩ (tree source) name
  | .getattr line source selector none =>
    .getattr ⟨file, line⟩ (tree source) (tree selector) none
  | .getattr line source selector (some fallback) =>
    .getattr ⟨file, line⟩ (tree source) (tree selector) (some (tree fallback))
  | .setattr line source selector value =>
    .setattr ⟨file, line⟩ (tree source) (tree selector) (tree value)
  | .hasattr line source selector => .hasattr ⟨file, line⟩ (tree source) (tree selector)
  | .constant line value => .constant ⟨file, line⟩ value.constant
  | .var line name => .var ⟨file, line⟩ name
  | .raise line className message =>
    .raise ⟨file, line⟩ ⟨(ExceptionClass.ofName? className).getD .baseException, message⟩
  | .sideEffects line effects value => .sideEffects ⟨file, line⟩ (trees effects) (tree value)
  | .tuple line elements => .tuple ⟨file, line⟩ (trees elements)
  | .call line called args kw => .call ⟨file, line⟩ (tree called) (tree args) (tree kw)

/-- The trees that samples stand for. -/
def trees : List Sample → List Expression
  | [] => []
  | s :: rest => tree s :: trees rest

end

mutual

/-- Whether all classes of exceptions have known names and all floats are finite. -/
def isSound : Sample → Bool
  | .attributeLookup _ source _ | .specialLookup _ source _ => isSound source
  | .getattr _ source selector none => isSound source && isSound selector
  | .getattr _ source selector (some fallback) =>
    isSound source && isSound selector && isSound fallback
  | .setattr _ source selector value => isSound source && isSound selector && isSound value
  | .hasattr _ source selector => isSound source && isSound selector
  | .constant _ value => value.isSound
  | .var _ _ => true
  | .raise _ className _ => (ExceptionClass.all.map ExceptionClass.name).contains className
  | .sideEffects _ effects value => areSound effects && isSound value
  | .tuple _ elements => areSound elements
  | .call _ called args kw => isSound called && isSound args && isSound kw

/-- Whether all of them are sound. -/
def areSound : List Sample → Bool
  | [] => true
  | s :: rest => isSound s && areSound rest

end

theorem toJson_raised {className : String} (message : String)
    (h : (ExceptionClass.all.map ExceptionClass.name).contains className = true) :
    RaisedException.toJson ⟨(ExceptionClass.ofName? className).getD .baseException, message⟩ =
      .obj [("kind", .str className), ("message", .str message)] := by
  obtain ⟨cls, -, rfl⟩ := List.mem_map.1 (List.contains_iff_mem.1 h)
  rw [RaisedException.ofName?_name]
  rfl

mutual

/-- A sound sample is written as the tree that it stands for. -/
theorem toJson_tree {s : Sample} (h : s.isSound = true) : s.tree.toJson = s.toJson := by
  cases s with
  | attributeLookup line source name =>
      have hsource : source.isSound = true := h
      rw [tree, Expression.toJson, toJson, toJson_tree hsource]
      rfl
  | specialLookup line source name =>
      have hsource : source.isSound = true := h
      rw [tree, Expression.toJson, toJson, toJson_tree hsource]
      rfl
  | getattr line source selector fallback =>
      cases fallback with
      | none =>
          obtain ⟨hsource, hselector⟩ := Bool.and_eq_true_iff.1 h
          rw [tree, Expression.toJson, toJson, toJson_tree hsource, toJson_tree hselector]
          rfl
      | some fallback =>
          simp only [isSound, Bool.and_eq_true] at h
          rw [tree, Expression.toJson, toJson, toJson_tree h.1.1, toJson_tree h.1.2,
            toJson_tree h.2]
          rfl
  | setattr line source selector value =>
      simp only [isSound, Bool.and_eq_true] at h
      rw [tree, Expression.toJson, toJson, toJson_tree h.1.1, toJson_tree h.1.2, toJson_tree h.2]
      rfl
  | hasattr line source selector =>
      obtain ⟨hsource, hselector⟩ := Bool.and_eq_true_iff.1 h
      rw [tree, Expression.toJson, toJson, toJson_tree hsource, toJson_tree hselector]
      rfl
  | constant line value =>
      rw [tree, Expression.toJson, toJson, value.toJson_constant]
      rfl
  | var line name => rfl
  | raise line className message =>
      rw [tree, Expression.toJson, toJson, toJson_raised message h]
      rfl
  | sideEffects line effects value =>
      obtain ⟨heffects, hvalue⟩ := Bool.and_eq_true_iff.1 h
      rw [tree, Expression.toJson, toJson, listToJson_trees heffects, toJson_tree hvalue]
      rfl
  | tuple line elements =>
      rw [tree, Expression.toJson, toJson, listToJson_trees h]
      rfl
  | call line called args kw =>
      simp only [isSound, Bool.and_eq_true] at h
      rw [tree, Expression.toJson, toJson, toJson_tree h.1.1, toJson_tree h.1.2, toJson_tree h.2]
      rfl

theorem listToJson_trees {samples : List Sample} (h : areSound samples = true) :
    Expression.listToJson (trees samples) = listToJson samples := by
  cases samples with
  | nil => rfl
  | cons s rest =>
      obtain ⟨hs, hrest⟩ := Bool.and_eq_true_iff.1 h
      rw [trees, Expression.listToJson, listToJson, toJson_tree hs, listToJson_trees hrest]

end

mutual

/-- The tree that a sound sample stands for has finite floats. -/
theorem finite_tree {s : Sample} (h : s.isSound = true) :
    ∀ x ∈ s.tree.floats, x.isFinite = true := by
  cases s with
  | attributeLookup line source name =>
      have hsource : source.isSound = true := h
      exact Expression.forall_mem_floats_of_children rfl
        (List.forall_mem_singleton.2 (finite_tree hsource))
  | specialLookup line source name =>
      have hsource : source.isSound = true := h
      exact Expression.forall_mem_floats_of_children rfl
        (List.forall_mem_singleton.2 (finite_tree hsource))
  | getattr line source selector fallback =>
      cases fallback with
      | none =>
          obtain ⟨hsource, hselector⟩ := Bool.and_eq_true_iff.1 h
          exact Expression.forall_mem_floats_of_children rfl (List.forall_mem_cons.2
            ⟨finite_tree hsource, List.forall_mem_singleton.2 (finite_tree hselector)⟩)
      | some fallback =>
          simp only [isSound, Bool.and_eq_true] at h
          exact Expression.forall_mem_floats_of_children rfl
            (List.forall_mem_cons.2 ⟨finite_tree h.1.1, List.forall_mem_cons.2
              ⟨finite_tree h.1.2, List.forall_mem_singleton.2 (finite_tree h.2)⟩⟩)
  | setattr line source selector value =>
      simp only [isSound, Bool.and_eq_true] at h
      exact Expression.forall_mem_floats_of_children rfl
        (List.forall_mem_cons.2 ⟨finite_tree h.1.1, List.forall_mem_cons.2
          ⟨finite_tree h.1.2, List.forall_mem_singleton.2 (finite_tree h.2)⟩⟩)
  | hasattr line source selector =>
      obtain ⟨hsource, hselector⟩ := Bool.and_eq_true_iff.1 h
      exact Expression.forall_mem_floats_of_children rfl (List.forall_mem_cons.2
        ⟨finite_tree hsource, List.forall_mem_singleton.2 (finite_tree hselector)⟩)
  | constant line value =>
      rw [tree, Expression.floats_constant]
      exact SampleConstant.finite_constant h
  | var line name => exact Expression.forall_mem_floats_of_children rfl (List.forall_mem_nil _)
  | raise line className message =>
      exact Expression.forall_mem_floats_of_children rfl (List.forall_mem_nil _)
  | sideEffects line effects value =>
      obtain ⟨heffects, hvalue⟩ := Bool.and_eq_true_iff.1 h
      refine Expression.forall_mem_floats_of_children rfl (List.forall_mem_append.2 ?_)
      exact ⟨finite_trees heffects, List.forall_mem_singleton.2 (finite_tree hvalue)⟩
  | tuple line elements =>
      exact Expression.forall_mem_floats_of_children rfl (finite_trees h)
  | call line called args kw =>
      simp only [isSound, Bool.and_eq_true] at h
      exact Expression.forall_mem_floats_of_children rfl
        (List.forall_mem_cons.2 ⟨finite_tree h.1.1, List.forall_mem_cons.2
          ⟨finite_tree h.1.2, List.forall_mem_singleton.2 (finite_tree h.2)⟩⟩)

theorem finite_trees {samples : List Sample} (h : areSound samples = true) :
    ∀ e ∈ trees samples, ∀ x ∈ e.floats, x.isFinite = true := by
  cases samples with
  | nil => exact List.forall_mem_nil _
  | cons s rest =>
      obtain ⟨hs, hrest⟩ := Bool.and_eq_true_iff.1 h
      exact List.forall_mem_cons.2 ⟨finite_tree hs, finite_trees hrest⟩

end

/-- The document of a constant with finite floats, and of a sound sample, is read as what it stands
    for, which is written in the same way. -/
theorem documents_are_read :
    (∀ (c : SampleConstant) (context : Context), c.isSound = true →
      Constant.ofJson? context c.toJson = some c.constant ∧ c.constant.toJson = c.toJson) ∧
    ∀ s : Sample, s.isSound = true →
      Expression.ofJson? s.toJson = some s.tree ∧
        Expression.ofJson? s.toJson.sortNames = some s.tree ∧ s.tree.toJson = s.toJson := by
  refine ⟨fun c context h => ⟨?_, c.toJson_constant⟩, fun s h => ⟨?_, ?_, toJson_tree h⟩⟩
  · rw [← c.toJson_constant]
    exact Constant.ofJson?_of_spelledBy context (SampleConstant.finite_constant h)
      c.constant.spelledBy_toJson
  · rw [← toJson_tree h]
    exact Expression.ofJson?_toJson (finite_tree h)
  · rw [← toJson_tree h]
    exact Expression.ofJson?_of_spelledBy (finite_tree h) s.tree.spelledBy_toJson.sortNames

/-- A sample with a constant of several parts, an exception, and a missing fallback. -/
theorem document_of_motley_sample_is_read :
    let c : SampleConstant := .tuple [.none, .float ⟨0⟩, .emptyDict, .tuple [.int (-1)]]
    let s : Sample := .sideEffects 1 [.raise 2 "KeyError" "gone"]
      (.getattr 3 (.constant 4 c) (.tuple 5 [.var 6 "x"]) none)
    let value : Constant := .tuple [.none, .float ⟨0⟩, .dict [], .tuple [.int (-1)]]
    let e : Expression := .sideEffects ⟨file, 1⟩ [.raise ⟨file, 2⟩ ⟨.keyError, "gone"⟩]
      (.getattr ⟨file, 3⟩ (.constant ⟨file, 4⟩ value) (.tuple ⟨file, 5⟩ [.var ⟨file, 6⟩ "x"]) none)
    (c.isSound = true ∧ Constant.ofJson? .alone c.toJson = some value ∧
      value.toJson = c.toJson) ∧
    (s.isSound = true ∧ Expression.ofJson? s.toJson = some e ∧
      Expression.ofJson? s.toJson.sortNames = some e ∧ e.toJson = s.toJson) := by
  intro c s value e
  have hc : c.isSound = true := by decide
  have hs : s.isSound = true := by decide
  exact ⟨⟨hc, documents_are_read.1 c .alone hc⟩, hs, documents_are_read.2 s hs⟩

end Sample

end AttributeOptimizer
