import AttributeOptimizer.Constant.Attributes
import AttributeOptimizer.Proofs.KeptEffects
import Mathlib.Data.List.Forall2

set_option autoImplicit false

/-! # Trees that differ in their locations only

`Alike` is equality of trees in all but their locations as a relation, one constructor for each kind
of node, so that two alike trees are taken apart together; `alike_iff` is its agreement with the
test `Expression.alike`. Alike trees answer every question that the rules ask in the same way, and
what the rules build of alike parts is alike. -/

namespace AttributeOptimizer

/-! ## Equal constants -/

namespace Constant

/-- The outcomes of looking up an attribute: equal values, no value in either, or one exception. -/
inductive EqualLookups :
    Except RaisedException (Option Constant) → Except RaisedException (Option Constant) → Prop where
  | value {c c' : Constant} : c.equal c' = true → EqualLookups (.ok (some c)) (.ok (some c'))
  | noValue : EqualLookups (.ok Option.none) (.ok Option.none)
  | error {exception : RaisedException} : EqualLookups (.error exception) (.error exception)

variable {c c' : Constant}

theorem typeName_eq_of_equal (h : c.equal c' = true) : c.typeName = c'.typeName := by
  cases c <;> cases c' <;> first | rfl | simp [equal] at h

theorem attributes_eq_of_equal (h : c.equal c' = true) : c.attributes = c'.attributes := by
  cases c <;> cases c' <;> first | rfl | simp [equal] at h

theorem string?_eq_of_equal (h : c.equal c' = true) : c.string? = c'.string? := by
  cases c <;> cases c' <;> first | rfl | simp_all [equal, string?]

theorem hasAttribute_eq_of_equal (h : c.equal c' = true) (name : String) :
    c.hasAttribute name = c'.hasAttribute name := by
  rw [hasAttribute, hasAttribute, attributes_eq_of_equal h]

/-- Data attributes of equal constants are equal: those of a float are the float and a zero. -/
theorem dataAttribute?_of_equal (h : c.equal c' = true) (name : String) :
    EqualLookups (.ok (c.dataAttribute? name)) (.ok (c'.dataAttribute? name)) := by
  cases c <;> cases c' <;> try exact Bool.noConfusion h
  case int.int a b =>
    obtain rfl := beq_iff_eq.1 h
    simp only [dataAttribute?]
    split_ifs <;> first | exact .noValue | exact .value (by simp [equal])
  case bool.bool a b =>
    obtain rfl := beq_iff_eq.1 h
    simp only [dataAttribute?]
    split_ifs <;> first | exact .noValue | exact .value (by simp [equal])
  case float.float a b =>
    simp only [dataAttribute?]
    split_ifs
    · exact .value h
    · exact .value (by decide)
    · exact .noValue
  all_goals exact .noValue

theorem lookupAttribute_of_equal (h : c.equal c' = true) (name : String) :
    EqualLookups (c.lookupAttribute name) (c'.lookupAttribute name) := by
  rw [lookupAttribute, lookupAttribute, hasAttribute_eq_of_equal h, typeName_eq_of_equal h]
  split
  · exact dataAttribute?_of_equal h name
  · exact .error

end Constant

/-! ## The relation -/

/-- The trees are equal in all but their locations; constants are compared as numbers inside. -/
inductive Alike : Expression → Expression → Prop where
  | attributeLookup {location location' : Location} {source source' : Expression} {name : String} :
      Alike source source' →
      Alike (.attributeLookup location source name) (.attributeLookup location' source' name)
  | specialLookup {location location' : Location} {source source' : Expression} {name : String} :
      Alike source source' →
      Alike (.specialLookup location source name) (.specialLookup location' source' name)
  | getattr {location location' : Location} {source source' selector selector' : Expression}
      {fallback fallback' : Option Expression} :
      Alike source source' → Alike selector selector' → Option.Rel Alike fallback fallback' →
      Alike (.getattr location source selector fallback)
        (.getattr location' source' selector' fallback')
  | setattr {location location' : Location}
      {source source' selector selector' value value' : Expression} :
      Alike source source' → Alike selector selector' → Alike value value' →
      Alike (.setattr location source selector value) (.setattr location' source' selector' value')
  | hasattr {location location' : Location} {source source' selector selector' : Expression} :
      Alike source source' → Alike selector selector' →
      Alike (.hasattr location source selector) (.hasattr location' source' selector')
  | constant {location location' : Location} {value value' : Constant} :
      value.equal value' = true → Alike (.constant location value) (.constant location' value')
  | var {location location' : Location} {name : String} :
      Alike (.var location name) (.var location' name)
  | raise {location location' : Location} {exception : RaisedException} :
      Alike (.raise location exception) (.raise location' exception)
  | sideEffects {location location' : Location} {effects effects' : List Expression}
      {value value' : Expression} :
      List.Forall₂ Alike effects effects' → Alike value value' →
      Alike (.sideEffects location effects value) (.sideEffects location' effects' value')
  | tuple {location location' : Location} {elements elements' : List Expression} :
      List.Forall₂ Alike elements elements' →
      Alike (.tuple location elements) (.tuple location' elements')
  | call {location location' : Location} {called called' args args' kw kw' : Expression} :
      Alike called called' → Alike args args' → Alike kw kw' →
      Alike (.call location called args kw) (.call location' called' args' kw')

namespace Expression

theorem forall₂_of_allAlike {as bs : List Expression} (h : allAlike as bs = true)
    (ih : ∀ a ∈ as, ∀ b, a.alike b = true → Alike a b) : List.Forall₂ Alike as bs := by
  induction as generalizing bs with
  | nil =>
      cases bs with
      | nil => exact .nil
      | cons b bs => exact Bool.noConfusion h
  | cons a as ihas =>
      obtain ⟨iha, ihas'⟩ := List.forall_mem_cons.1 ih
      cases bs with
      | nil => exact Bool.noConfusion h
      | cons b bs =>
          rw [allAlike, Bool.and_eq_true] at h
          exact .cons (iha b h.1) (ihas h.2 ihas')

theorem allAlike_of_forall₂ {as bs : List Expression} (h : List.Forall₂ Alike as bs)
    (ih : ∀ a ∈ as, ∀ b, Alike a b → a.alike b = true) : allAlike as bs = true := by
  induction h with
  | nil => rfl
  | @cons a b as bs hab _ ihas =>
      obtain ⟨iha, ihas'⟩ := List.forall_mem_cons.1 ih
      rw [allAlike, iha b hab, ihas ihas']
      rfl

theorem alike_of_alike {a b : Expression} (h : a.alike b = true) : Alike a b := by
  induction a using childInduction generalizing b with
  | node a ih =>
      -- The cases are the arms of the test; in the last of them, two nodes that do not fit.
      unfold alike at h
      split at h
      · rw [Bool.and_eq_true, beq_iff_eq] at h
        obtain ⟨rfl, hsource⟩ := h
        exact .attributeLookup (ih _ (by simp [children]) hsource)
      · rw [Bool.and_eq_true, beq_iff_eq] at h
        obtain ⟨rfl, hsource⟩ := h
        exact .specialLookup (ih _ (by simp [children]) hsource)
      · rw [Bool.and_eq_true] at h
        exact .getattr (ih _ (by simp [children]) h.1) (ih _ (by simp [children]) h.2) .none
      · rw [Bool.and_eq_true, Bool.and_eq_true] at h
        exact .getattr (ih _ (by simp [children]) h.1.1) (ih _ (by simp [children]) h.1.2)
          (.some (ih _ (by simp [children]) h.2))
      · rw [Bool.and_eq_true, Bool.and_eq_true] at h
        exact .setattr (ih _ (by simp [children]) h.1.1) (ih _ (by simp [children]) h.1.2)
          (ih _ (by simp [children]) h.2)
      · rw [Bool.and_eq_true] at h
        exact .hasattr (ih _ (by simp [children]) h.1) (ih _ (by simp [children]) h.2)
      · exact .constant h
      · obtain rfl := beq_iff_eq.1 h
        exact .var
      · obtain rfl := beq_iff_eq.1 h
        exact .raise
      · rw [Bool.and_eq_true] at h
        exact .sideEffects
          (forall₂_of_allAlike h.1 fun c hc _ hlike => ih c (effect_mem_children hc ..) hlike)
          (ih _ (value_mem_children ..) h.2)
      · exact .tuple (forall₂_of_allAlike h fun c hc _ hlike => ih c hc hlike)
      · rw [Bool.and_eq_true, Bool.and_eq_true] at h
        exact .call (ih _ (by simp [children]) h.1.1) (ih _ (by simp [children]) h.1.2)
          (ih _ (by simp [children]) h.2)
      · exact Bool.noConfusion h

end Expression

open Expression

namespace Alike

theorem alike {a b : Expression} (h : Alike a b) : a.alike b = true := by
  induction a using childInduction generalizing b with
  | node a ih =>
      cases h with
      | attributeLookup hsource =>
          have hs := ih _ (by simp [children]) hsource
          simp [Expression.alike, hs]
      | specialLookup hsource =>
          have hs := ih _ (by simp [children]) hsource
          simp [Expression.alike, hs]
      | getattr hsource hselector hfallback =>
          have hs := ih _ (by simp [children]) hsource
          have hn := ih _ (by simp [children]) hselector
          cases hfallback with
          | none => simp [Expression.alike, hs, hn]
          | some hfallback =>
              have hf := ih _ (by simp [children]) hfallback
              simp [Expression.alike, hs, hn, hf]
      | setattr hsource hselector hvalue =>
          have hs := ih _ (by simp [children]) hsource
          have hn := ih _ (by simp [children]) hselector
          have hv := ih _ (by simp [children]) hvalue
          simp [Expression.alike, hs, hn, hv]
      | hasattr hsource hselector =>
          have hs := ih _ (by simp [children]) hsource
          have hn := ih _ (by simp [children]) hselector
          simp [Expression.alike, hs, hn]
      | constant hvalue => exact hvalue
      | var => simp [Expression.alike]
      | raise => simp [Expression.alike]
      | sideEffects heffects hvalue =>
          have hall := allAlike_of_forall₂ heffects
            fun c hc _ hlike => ih c (effect_mem_children hc ..) hlike
          have hv := ih _ (value_mem_children ..) hvalue
          simp [Expression.alike, hall, hv]
      | tuple helements =>
          exact allAlike_of_forall₂ helements fun c hc _ hlike => ih c hc hlike
      | call hcalled hargs hkw =>
          have hc := ih _ (by simp [children]) hcalled
          have ha := ih _ (by simp [children]) hargs
          have hk := ih _ (by simp [children]) hkw
          simp [Expression.alike, hc, ha, hk]

/-- The test decides the relation. -/
theorem alike_iff {a b : Expression} : a.alike b = true ↔ Alike a b := ⟨alike_of_alike, alike⟩

/-! ## Questions that alike trees answer alike -/

section

variable {a b : Expression}

theorem children (h : Alike a b) : List.Forall₂ Alike a.children b.children := by
  cases h with
  | attributeLookup hsource => exact .cons hsource .nil
  | specialLookup hsource => exact .cons hsource .nil
  | getattr hsource hselector hfallback =>
      cases hfallback with
      | none => exact .cons hsource (.cons hselector .nil)
      | some hfallback => exact .cons hsource (.cons hselector (.cons hfallback .nil))
  | setattr hsource hselector hvalue => exact .cons hsource (.cons hselector (.cons hvalue .nil))
  | hasattr hsource hselector => exact .cons hsource (.cons hselector .nil)
  | constant hvalue => exact .nil
  | var => exact .nil
  | raise => exact .nil
  | sideEffects heffects hvalue => exact List.rel_append heffects (.cons hvalue .nil)
  | tuple helements => exact helements
  | call hcalled hargs hkw => exact .cons hcalled (.cons hargs (.cons hkw .nil))

theorem isConstant_eq (h : Alike a b) : a.isConstant = b.isConstant := by
  cases h <;> rfl

end

theorem map_eq {α : Type} {as bs : List Expression} {f : Expression → α}
    (h : List.Forall₂ Alike as bs) (hf : ∀ a ∈ as, ∀ b, Alike a b → f a = f b) :
    as.map f = bs.map f := by
  induction h with
  | nil => rfl
  | cons hab _ ih =>
      obtain ⟨ha, has⟩ := List.forall_mem_cons.1 hf
      rw [List.map_cons, List.map_cons, ha _ hab, ih has]

theorem any_eq {as bs : List Expression} {p : Expression → Bool}
    (h : List.Forall₂ Alike as bs) (hp : ∀ a ∈ as, ∀ b, Alike a b → p a = p b) :
    as.any p = bs.any p := by
  have hmap := congrArg (List.any · id) (map_eq h hp)
  simpa only [List.any_map, Function.id_comp] using hmap

theorem raises_eq {a b : Expression} (h : Alike a b) : a.raises = b.raises := by
  induction a using childInduction generalizing b with
  | node a ih =>
      cases h with
      | sideEffects heffects hvalue =>
          rw [raises_sideEffects, raises_sideEffects, ih _ (value_mem_children ..) hvalue,
            any_eq heffects fun c hc b hlike => ih c (effect_mem_children hc ..) hlike]
      | _ => simp [raises, alwaysRaises]

theorem mayHaveEffects_eq {a b : Expression} (h : Alike a b) :
    a.mayHaveEffects = b.mayHaveEffects := by
  induction a using childInduction generalizing b with
  | node a ih =>
      cases h with
      | sideEffects heffects hvalue =>
          simp only [mayHaveEffects, anyMayHaveEffects_eq_any]
          rw [ih _ (value_mem_children ..) hvalue,
            any_eq heffects fun c hc b hlike => ih c (effect_mem_children hc ..) hlike]
      | tuple helements =>
          simp only [mayHaveEffects, anyMayHaveEffects_eq_any]
          exact any_eq helements fun c hc b hlike => ih c hc hlike
      | _ => simp [mayHaveEffects]

/-- What leads from alike members to alike lists leads from alike lists to alike lists. -/
theorem flatMap {as bs : List Expression} {f : Expression → List Expression}
    (h : List.Forall₂ Alike as bs)
    (hf : ∀ a ∈ as, ∀ b, Alike a b → List.Forall₂ Alike (f a) (f b)) :
    List.Forall₂ Alike (as.flatMap f) (bs.flatMap f) := by
  induction h with
  | nil => exact .nil
  | cons hab _ ih =>
      obtain ⟨ha, has⟩ := List.forall_mem_cons.1 hf
      rw [List.flatMap_cons, List.flatMap_cons]
      exact List.rel_append (ha _ hab) (ih has)

theorem effects {a b : Expression} (h : Alike a b) :
    List.Forall₂ Alike a.effects b.effects := by
  induction a using childInduction generalizing b with
  | node a ih =>
      cases h with
      | sideEffects heffects hvalue =>
          simp only [Expression.effects, allEffects_eq_flatMap]
          exact List.rel_append
            (flatMap heffects fun c hc b hlike => ih c (effect_mem_children hc ..) hlike)
            (ih _ (value_mem_children ..) hvalue)
      | tuple helements =>
          simp only [Expression.effects, allEffects_eq_flatMap]
          exact flatMap helements fun c hc b hlike => ih c hc hlike
      | constant hvalue => exact .nil
      | var => exact .nil
      | attributeLookup hsource => exact .cons (.attributeLookup hsource) .nil
      | specialLookup hsource => exact .cons (.specialLookup hsource) .nil
      | getattr hsource hselector hfallback =>
          exact .cons (.getattr hsource hselector hfallback) .nil
      | setattr hsource hselector hvalue => exact .cons (.setattr hsource hselector hvalue) .nil
      | hasattr hsource hselector => exact .cons (.hasattr hsource hselector) .nil
      | raise => exact .cons .raise .nil
      | call hcalled hargs hkw => exact .cons (.call hcalled hargs hkw) .nil

theorem allEffects {as bs : List Expression} (h : List.Forall₂ Alike as bs) :
    List.Forall₂ Alike (allEffects as) (allEffects bs) := by
  rw [allEffects_eq_flatMap, allEffects_eq_flatMap]
  exact flatMap h fun _ _ _ hab => hab.effects

/-- Effects come in front of alike nodes alike. -/
theorem after {node node' : Expression} {dropped dropped' : List Expression}
    (hnode : Alike node node') (hdropped : List.Forall₂ Alike dropped dropped')
    (location location' : Location) :
    Alike (node.after dropped location) (node'.after dropped' location') := by
  have heffects := allEffects hdropped
  simp only [Expression.after, flatMap_effects_filter]
  generalize Expression.allEffects dropped = effects, Expression.allEffects dropped' = effects'
    at heffects ⊢
  cases heffects with
  | nil => exact hnode
  | cons hfirst hrest =>
      have hkept := hnode
      cases hnode with
      | sideEffects hinner hvalue =>
          exact .sideEffects (List.rel_append (.cons hfirst hrest) hinner) hvalue
      | _ => exact .sideEffects (.cons hfirst hrest) hkept

theorem inPlaceOf {node node' old old' : Expression} (hnode : Alike node node')
    (hold : Alike old old') : Alike (node.inPlaceOf old) (node'.inPlaceOf old') :=
  hnode.after hold.effects old.location old'.location

end Alike

end AttributeOptimizer
