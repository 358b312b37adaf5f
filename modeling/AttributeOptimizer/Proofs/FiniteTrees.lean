import AttributeOptimizer.Proofs.FiniteReading
import AttributeOptimizer.Proofs.RoundTrip

set_option autoImplicit false

/-! # Trees that were read have finite floats

A float of a tree that was read is a number of the document, or a whole number of it that was
rounded; both are finite. -/

namespace AttributeOptimizer

/-! ## Constants -/

namespace Constant

variable {context : Context} {j : Json} {c : Constant}

theorem floats_of_ofTag? {tag : String} (h : ofTag? tag = some c) : c.floats = [] := by
  unfold ofTag? at h
  split_ifs at h <;> exact Option.some.inj h ▸ rfl

theorem isFinite_of_float? {x : Binary64} (hj : j.Ranged) (h : j.float? = some x) :
    x.isFinite = true := by
  cases hj with
  | float hfinite => exact Option.some.inj h ▸ hfinite
  | int hlow hhigh => exact Option.some.inj h ▸ Binary64.isFinite_ofRatio_of_lt (by omega)
  | _ => cases h

theorem isFinite_of_ofScalar? {sort : String} (hj : j.Ranged)
    (h : ofScalar? context sort j = some c) : ∀ x ∈ c.floats, x.isFinite = true := by
  unfold ofScalar? at h
  split_ifs at h
  · rw [floats_of_ofTag? h]
    exact List.forall_mem_nil _
  · obtain ⟨value, -, rfl⟩ := Option.map_eq_some_iff.1 h
    exact List.forall_mem_nil _
  · obtain ⟨value, -, rfl⟩ := Option.map_eq_some_iff.1 h
    exact List.forall_mem_nil _
  · obtain ⟨value, hvalue, rfl⟩ := Option.map_eq_some_iff.1 h
    exact List.forall_mem_singleton.2 (isFinite_of_float? hj hvalue)
  · obtain ⟨value, -, rfl⟩ := Option.map_eq_some_iff.1 h
    exact List.forall_mem_nil _

theorem exists_of_mem_pairs {items : List Json} {pairs : List (Constant × Constant)}
    (h : pairsOfJson? context items = some pairs) :
    ∀ p ∈ pairs, ∃ key value, Json.arr [key, value] ∈ items ∧ ofJson? context key = some p.1 ∧
      ofJson? context value = some p.2 := by
  induction items generalizing pairs with
  | nil =>
      obtain rfl := Option.some.inj h
      exact List.forall_mem_nil _
  | cons j items ih =>
      unfold pairsOfJson? at h
      split at h
      · next heq => cases heq
      · next key value items' heq =>
          obtain ⟨rfl, rfl⟩ := List.cons.inj heq
          simp only [Option.bind_eq_bind, Option.bind_eq_some_iff] at h
          obtain ⟨first, hfirst, second, hsecond, rest, hrest, hpairs⟩ := h
          obtain rfl := Option.some.inj hpairs
          refine List.forall_mem_cons.2
            ⟨⟨key, value, List.mem_cons_self, hfirst, hsecond⟩, fun p hp => ?_⟩
          obtain ⟨key', value', hmem, hread⟩ := ih hrest p hp
          exact ⟨key', value', List.mem_cons_of_mem _ hmem, hread⟩
      · cases h

/-- A constant that was read has finite floats. -/
theorem isFinite_of_ofJson? (hj : j.Ranged) (h : ofJson? context j = some c) :
    ∀ x ∈ c.floats, x.isFinite = true := by
  -- The induction is on the constant: its parts were read from parts of the value.
  induction c using partInduction generalizing j with
  | constant c ih =>
      rw [ofJson?.eq_def] at h
      split at h
      · rw [floats_of_ofTag? h]
        exact List.forall_mem_nil _
      · cases hj with
        | obj hmembers =>
            cases hmembers _ List.mem_cons_self with
            | arr hitems =>
                split_ifs at h
                · obtain ⟨bytes, -, rfl⟩ := Option.map_eq_some_iff.1 h
                  exact List.forall_mem_nil _
                · obtain ⟨elements, helements, rfl⟩ := Option.map_eq_some_iff.1 h
                  rw [floats, elementsFloats_eq_flatMap, List.forall_mem_flatMap]
                  intro p hp
                  rw [elementsOfJson?_eq_mapM] at helements
                  obtain ⟨j', hj', hread⟩ := exists_of_mem_mapM helements p hp
                  exact ih p hp (hitems j' hj') hread
                · obtain ⟨pairs, hpairs, rfl⟩ := Option.map_eq_some_iff.1 h
                  rw [floats, pairsFloats_eq_flatMap, List.forall_mem_flatMap]
                  intro p hp
                  obtain ⟨pair, hpair, hpart⟩ := List.mem_flatMap.1 hp
                  obtain ⟨key, value, hitem, hkey, hvalue⟩ := exists_of_mem_pairs hpairs pair hpair
                  cases hitems _ hitem with
                  | arr hboth =>
                      rcases List.mem_pair.1 hpart with rfl | rfl
                      · exact ih _ hp (hboth key (by simp)) hkey
                      · exact ih _ hp (hboth value (by simp)) hvalue
      · cases hj with
        | obj hmembers => exact isFinite_of_ofScalar? (hmembers _ List.mem_cons_self) h
      · cases h

end Constant

/-! ## Nodes -/

namespace NodeReading

open Expression

/-- Everything that a value can be read as has finite floats. -/
structure Finite (r : NodeReading) : Prop where
  json : r.json.Ranged
  node : ∀ e, r.node? = some e → ∀ x ∈ e.floats, x.isFinite = true
  list : ∀ es, r.list? = some es → ∀ e ∈ es, ∀ x ∈ e.floats, x.isFinite = true

/-- A value that cannot be read as a node or as nodes only has to be in range. -/
theorem Finite.of_json {r : NodeReading} (hjson : r.json.Ranged) (hnode : r.node? = none)
    (hlist : r.list? = none) : r.Finite where
  json := hjson
  node := fun e he => absurd (he.symm.trans hnode) (Option.some_ne_none e)
  list := fun es hes => absurd (hes.symm.trans hlist) (Option.some_ne_none es)

theorem Finite.fallback {r : NodeReading} (h : r.Finite) {fallback : Option Expression}
    (hr : r.fallback? = some fallback) :
    ∀ e ∈ fallback.toList, ∀ x ∈ e.floats, x.isFinite = true := by
  unfold fallback? at hr
  split at hr
  · obtain rfl := Option.some.inj hr
    exact List.forall_mem_nil _
  · obtain ⟨e, he, rfl⟩ := Option.map_eq_some_iff.1 hr
    exact List.forall_mem_singleton.2 (h.node e he)

/-- A node that is made of what has finite floats has finite floats. -/
theorem isFinite_of_assemble? {kind : Kind} {fields : List (Option NodeReading)}
    (h : ∀ r, some r ∈ fields → r.Finite) {e : Expression} (he : assemble? kind fields = some e) :
    ∀ x ∈ e.floats, x.isFinite = true := by
  unfold assemble? at he
  -- The cases are the kinds, and last a kind with the wrong fields.
  split at he
  on_goal 13 => cases he
  all_goals
    simp only [Option.bind_eq_bind, Option.bind_eq_some_iff, Option.pure_def,
      Option.some.injEq] at he
    simp only [List.mem_cons, List.not_mem_nil, or_false, forall_eq_or_imp, forall_eq,
      Option.some.injEq, reduceCtorEq] at h
  · obtain ⟨_, -, source, hsource, _, -, rfl⟩ := he
    exact forall_mem_floats_of_children rfl (List.forall_mem_singleton.2 (h.2.1.node _ hsource))
  · obtain ⟨_, -, source, hsource, _, -, rfl⟩ := he
    exact forall_mem_floats_of_children rfl (List.forall_mem_singleton.2 (h.2.1.node _ hsource))
  · obtain ⟨_, -, source, hsource, selector, hselector, rfl⟩ := he
    exact forall_mem_floats_of_children rfl (List.forall_mem_cons.2 ⟨h.2.1.node _ hsource,
      List.forall_mem_singleton.2 (h.2.2.node _ hselector)⟩)
  · obtain ⟨_, -, source, hsource, selector, hselector, fallback, hfallback, rfl⟩ := he
    refine forall_mem_floats_of_children rfl ?_
    have hoperands := List.forall_mem_cons.2 ⟨h.2.1.node _ hsource,
      List.forall_mem_cons.2 ⟨h.2.2.1.node _ hselector, h.2.2.2.fallback hfallback⟩⟩
    cases fallback <;> exact hoperands
  · obtain ⟨_, -, source, hsource, selector, hselector, value, hvalue, rfl⟩ := he
    exact forall_mem_floats_of_children rfl (List.forall_mem_cons.2 ⟨h.2.1.node _ hsource,
      List.forall_mem_cons.2 ⟨h.2.2.1.node _ hselector,
        List.forall_mem_singleton.2 (h.2.2.2.node _ hvalue)⟩⟩)
  · obtain ⟨_, -, source, hsource, selector, hselector, rfl⟩ := he
    exact forall_mem_floats_of_children rfl (List.forall_mem_cons.2 ⟨h.2.1.node _ hsource,
      List.forall_mem_singleton.2 (h.2.2.node _ hselector)⟩)
  · obtain ⟨_, -, value, hvalue, rfl⟩ := he
    rw [floats_constant]
    exact Constant.isFinite_of_ofJson? h.2.json hvalue
  · obtain ⟨_, -, _, -, rfl⟩ := he
    exact forall_mem_floats_of_children rfl (List.forall_mem_nil _)
  · obtain ⟨_, -, _, -, rfl⟩ := he
    exact forall_mem_floats_of_children rfl (List.forall_mem_nil _)
  · obtain ⟨_, -, effects, heffects, value, hvalue, rfl⟩ := he
    exact forall_mem_floats_of_children rfl (List.forall_mem_append.2 ⟨h.2.1.list _ heffects,
      List.forall_mem_singleton.2 (h.2.2.node _ hvalue)⟩)
  · obtain ⟨_, -, elements, helements, rfl⟩ := he
    exact forall_mem_floats_of_children rfl (h.2.list _ helements)
  · obtain ⟨_, -, called, hcalled, args, hargs, kw, hkw, rfl⟩ := he
    exact forall_mem_floats_of_children rfl (List.forall_mem_cons.2 ⟨h.2.1.node _ hcalled,
      List.forall_mem_cons.2 ⟨h.2.2.1.node _ hargs,
        List.forall_mem_singleton.2 (h.2.2.2.node _ hkw)⟩⟩)

/-- What is found among named values is one of them. -/
theorem mem_of_only? {values : List (String × NodeReading)} {name : String} {r : NodeReading}
    (h : Json.only? values name = some (some r)) : (name, r) ∈ values := by
  unfold Json.only? at h
  split at h
  · cases h
  · next other value hfilter =>
      obtain rfl := Option.some.inj (Option.some.inj h)
      obtain ⟨hmem, hname⟩ := List.mem_filter.1 (hfilter ▸ List.mem_singleton_self (other, value))
      exact of_decide_eq_true hname ▸ hmem
  · cases h

theorem isFinite_of_ofMembers? {members : List (String × NodeReading)}
    (h : ∀ m ∈ members, m.2.Finite) {e : Expression} (he : ofMembers? members = some e) :
    ∀ x ∈ e.floats, x.isFinite = true := by
  simp only [ofMembers?, Option.bind_eq_bind, Option.bind_eq_some_iff] at he
  obtain ⟨-, -, -, -, kind, -, fields, hfields, he⟩ := he
  refine isFinite_of_assemble? (fun r hr => ?_) he
  obtain ⟨name, -, hfound⟩ := exists_of_mem_mapM hfields _ hr
  exact h _ (mem_of_only? hfound)

theorem isFinite_of_ofItems? {items : List NodeReading} (h : ∀ r ∈ items, r.Finite)
    {e : Expression} (he : ofItems? items = some e) : ∀ x ∈ e.floats, x.isFinite = true := by
  unfold ofItems? at he
  split at he
  · cases he
  · next tag fields =>
      simp only [Option.bind_eq_bind, Option.bind_eq_some_iff] at he
      obtain ⟨kind, -, he⟩ := he
      split at he
      · refine isFinite_of_assemble? (fun r hr => ?_) he
        obtain ⟨r', hr', hsame⟩ := List.mem_map.1 hr
        obtain rfl := Option.some.inj hsame
        exact h _ (List.mem_cons_of_mem _ hr')
      · cases he

end NodeReading

/-- Whatever a value in range is read as has finite floats. -/
theorem Json.Ranged.asNode {j : Json} (h : j.Ranged) : j.asNode.Finite := by
  induction h with
  | @arr items hitems ih =>
      rw [Json.asNode, asNodes_eq_map]
      have hreadings : ∀ r ∈ items.map Json.asNode, r.Finite := List.forall_mem_map.2 ih
      refine ⟨.arr hitems, fun e he => NodeReading.isFinite_of_ofItems? hreadings he, ?_⟩
      intro es hes e he
      obtain ⟨r, hr, hnode⟩ := exists_of_mem_mapM hes e he
      exact (hreadings r hr).node e hnode
  | @obj members hmembers ih =>
      rw [Json.asNode, asMembers_eq_map]
      have hreadings : ∀ m ∈ members.map (fun m => (m.1, Json.asNode m.2)), m.2.Finite :=
        List.forall_mem_map.2 ih
      refine ⟨.obj hmembers, fun e he => NodeReading.isFinite_of_ofMembers? hreadings he, ?_⟩
      intro es hes
      cases hes
  | null => exact .of_json .null rfl rfl
  | bool value => exact .of_json (.bool value) rfl rfl
  | int hlow hhigh => exact .of_json (.int hlow hhigh) rfl rfl
  | float hfinite => exact .of_json (.float hfinite) rfl rfl
  | str value => exact .of_json (.str value) rfl rfl
  | unreadable => exact .of_json .unreadable rfl rfl

/-- The floats of a tree that was read from a document are finite. -/
theorem Expression.isFinite_of_parse? {text : String} {e : Expression}
    (h : Expression.parse? text = some e) : ∀ x ∈ e.floats, x.isFinite = true := by
  obtain ⟨j, hj, hread⟩ := Option.bind_eq_some_iff.1 h
  split at hread
  · unfold Expression.ofJson? at hread
    split at hread
    · exact (Json.parse?_ranged hj).asNode.node e hread
    · cases hread
  · cases hread

end AttributeOptimizer
