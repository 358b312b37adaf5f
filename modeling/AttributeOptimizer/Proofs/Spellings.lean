import AttributeOptimizer.Format.Results
import AttributeOptimizer.Proofs.Records
import AttributeOptimizer.Proofs.Trees

set_option autoImplicit false

/-! # Reading every spelling of a tree

A node is a record whose first field is the tag of its kind (`Kind.NodeOf`). `Expression.SpelledBy`
lets every node of a tree, and every location, exception and constant in it, be spelled in its own
way, and lets a node leave out the fallback that it does not have. What a node says of its own
fields is kept apart from how its children are spelled (`Expression.FieldsSpelledBy`): the cases by
kind are there, and what holds of spellings follows by induction over children. Whatever the
spelling, its parts are read as the nodes that they spell, so that a tree with finite floats is read
from all of its spellings; what is written of the tree is one of them. -/

namespace AttributeOptimizer

/-! ## Records of nodes -/

namespace Kind

/-- The spellings of a node of a kind whose fields have the given values. -/
def NodeOf (kind : Kind) (values : List Json) (j : Json) : Prop :=
  Json.RecordOf ("kind" :: kind.fieldNames) (kind.toJson :: values) j

theorem ofTag?_tag (kind : Kind) : ofTag? kind.tag = some kind := by
  cases kind <;> rfl

theorem nodup_fieldNames (kind : Kind) : ("kind" :: kind.fieldNames).Nodup := by
  cases kind <;> decide

theorem ofInnerTag?_toJson (kind : Kind) : ofInnerTag? kind.toJson.asNode.json = some kind :=
  kind.ofTag?_tag

end Kind

/-- Readings make the node of the kind that their tag names, out of the fields of that kind. -/
theorem NodeReading.ofMembers?_of_mapM {kind : Kind} {readings : List (String × NodeReading)}
    {fields : List (Option NodeReading)}
    (h : ("kind" :: kind.fieldNames).mapM (Json.only? readings) =
      some (some kind.toJson.asNode :: fields)) :
    ofMembers? readings = assemble? kind fields := by
  simp only [List.mapM_cons, Option.bind_eq_bind, Option.bind_eq_some_iff] at h
  obtain ⟨tag, htag, fields', hfields, hall⟩ := h
  obtain ⟨rfl, rfl⟩ := List.cons.inj (Option.some.inj hall)
  simp only [ofMembers?, Option.bind_eq_bind, htag, Option.bind_some, kind.ofInnerTag?_toJson,
    hfields]

namespace Json

@[simp] theorem json_asNode (j : Json) : j.asNode.json = j := by
  cases j <;> rfl

theorem list?_asNode_arr (items : List Json) :
    (asNode (.arr items)).list? = items.mapM fun j => j.asNode.node? := by
  rw [asNode, asNodes_eq_map, List.mapM_map]
  rfl

variable {kind : Kind} {values : List Json} {j : Json}

/-- An object is read as the node that is made of the readings of its fields, which may come in any
    order and among others; the last ones may be missing. -/
theorem node?_asNode_of_objectOf
    (h : ObjectOf ("kind" :: kind.fieldNames) (kind.toJson :: values) j)
    (hlength : values.length ≤ kind.fieldNames.length) :
    j.asNode.node? =
      NodeReading.assemble? kind ((values.map fun v => some v.asNode) ++
        List.replicate (kind.fieldNames.length - values.length) none) := by
  cases h with
  | @intro members others horder hothers =>
      let reading : String × Json → String × NodeReading := Prod.map id asNode
      have hreadings : (members.map reading).Perm
          (("kind" :: kind.fieldNames).zip ((kind.toJson :: values).map asNode) ++
            others.map reading) := by
        rw [List.zip_map_right, ← List.map_append]
        exact horder.map reading
      have hfields := mapM_only?_of_perm hreadings (List.forall_mem_map.2 hothers)
        kind.nodup_fieldNames (by simpa using hlength)
      rw [asNode, asMembers_eq_map]
      refine (NodeReading.ofMembers?_of_mapM hfields).trans ?_
      simp [Function.comp_def]

/-- A node is read, in every spelling of it, as the node that is made of the readings of its
    fields. -/
theorem node?_asNode_of_nodeOf (h : kind.NodeOf values j)
    (hlength : values.length = kind.fieldNames.length) :
    j.asNode.node? = NodeReading.assemble? kind (values.map fun v => some v.asNode) := by
  cases h with
  | object hobject =>
      rw [node?_asNode_of_objectOf hobject (Nat.le_of_eq hlength), hlength, Nat.sub_self,
        List.replicate_zero, List.append_nil]
  | array =>
      have hfields : (values.map asNode).length = kind.fieldNames.length := by
        rw [List.length_map, hlength]
      rw [asNode, asNodes_eq_map, List.map_cons]
      simp only [NodeReading.ofItems?, kind.ofInnerTag?_toJson, Option.bind_eq_bind,
        Option.bind_some, if_pos hfields, List.map_map]
      rfl

theorem hasTextTag_of_objectOf
    (h : ObjectOf ("kind" :: kind.fieldNames) (kind.toJson :: values) j) :
    j.hasTextTag = true := by
  cases h with
  | intro horder hothers =>
      refine List.all_eq_true.2 fun m hm => ?_
      rcases List.mem_append.1 (horder.subset hm) with hm | hm
      · rcases List.mem_cons.1 hm with rfl | hm
        · rfl
        · have hname : m.1 ≠ "kind" := fun hkind =>
            (List.nodup_cons.1 kind.nodup_fieldNames).1 (hkind ▸ (List.of_mem_zip hm).1)
          simp [hname]
      · have hname : m.1 ≠ "kind" := fun hkind => hothers m hm (hkind ▸ List.mem_cons_self)
        simp [hname]

theorem hasTextTag_of_nodeOf (h : kind.NodeOf values j) : j.hasTextTag = true := by
  cases h with
  | object hobject => exact hasTextTag_of_objectOf hobject
  | array => rfl

/-- What is a node is a fallback. -/
theorem fallback?_asNode {e : Expression} (htag : j.hasTextTag = true)
    (h : j.asNode.node? = some e) : j.asNode.fallback? = some (some e) := by
  rw [NodeReading.fallback?, json_asNode, h]
  cases j with
  | null => cases htag
  | _ => rfl

end Json

/-! ## Trees -/

namespace Expression

/-- The spellings of the fields of a node, in order, where the children are spelled in given ways. -/
inductive FieldsSpelledBy (spells : Expression → Json → Prop) : Expression → List Json → Prop where
  | attributeLookup {location : Location} {source : Expression} {l s : Json} (name : String) :
      location.SpelledBy l → spells source s →
      FieldsSpelledBy spells (.attributeLookup location source name) [l, s, .str name]
  | specialLookup {location : Location} {source : Expression} {l s : Json} (name : String) :
      location.SpelledBy l → spells source s →
      FieldsSpelledBy spells (.specialLookup location source name) [l, s, .str name]
  | getattr {location : Location} {source selector : Expression} {l s a : Json} :
      location.SpelledBy l → spells source s → spells selector a →
      FieldsSpelledBy spells (.getattr location source selector none) [l, s, a, .null]
  | getattrOr {location : Location} {source selector fallback : Expression} {l s a d : Json} :
      location.SpelledBy l → spells source s → spells selector a → spells fallback d →
      FieldsSpelledBy spells (.getattr location source selector (some fallback)) [l, s, a, d]
  | setattr {location : Location} {source selector value : Expression} {l s a v : Json} :
      location.SpelledBy l → spells source s → spells selector a → spells value v →
      FieldsSpelledBy spells (.setattr location source selector value) [l, s, a, v]
  | hasattr {location : Location} {source selector : Expression} {l s a : Json} :
      location.SpelledBy l → spells source s → spells selector a →
      FieldsSpelledBy spells (.hasattr location source selector) [l, s, a]
  | constant {location : Location} {value : Constant} {l v : Json} :
      location.SpelledBy l → value.SpelledBy v →
      FieldsSpelledBy spells (.constant location value) [l, v]
  | var {location : Location} {l : Json} (name : String) :
      location.SpelledBy l → FieldsSpelledBy spells (.var location name) [l, .str name]
  | raise {location : Location} {exception : RaisedException} {l x : Json} :
      location.SpelledBy l → exception.SpelledBy x →
      FieldsSpelledBy spells (.raise location exception) [l, x]
  | sideEffects {location : Location} {effects : List Expression} {value : Expression}
      {items : List Json} {l v : Json} :
      location.SpelledBy l → List.Forall₂ spells effects items → spells value v →
      FieldsSpelledBy spells (.sideEffects location effects value) [l, .arr items, v]
  | tuple {location : Location} {elements : List Expression} {items : List Json} {l : Json} :
      location.SpelledBy l → List.Forall₂ spells elements items →
      FieldsSpelledBy spells (.tuple location elements) [l, .arr items]
  | call {location : Location} {called args kw : Expression} {l c a k : Json} :
      location.SpelledBy l → spells called c → spells args a → spells kw k →
      FieldsSpelledBy spells (.call location called args kw) [l, c, a, k]

/-- The spellings of a tree. -/
inductive SpelledBy : Expression → Json → Prop where
  | node {e : Expression} {values : List Json} {j : Json} :
      FieldsSpelledBy SpelledBy e values → e.kind.NodeOf values j → SpelledBy e j
  /-- Where there is no fallback an object may leave out the `null` for it. -/
  | omitted {location : Location} {source selector : Expression} {l s a j : Json} :
      FieldsSpelledBy SpelledBy (.getattr location source selector none) [l, s, a, .null] →
      Json.ObjectOf ("kind" :: Kind.getattr.fieldNames) [Kind.getattr.toJson, l, s, a] j →
      SpelledBy (.getattr location source selector none) j

theorem hasTextTag_of_spelledBy {e : Expression} {j : Json} (h : e.SpelledBy j) :
    j.hasTextTag = true := by
  cases h with
  | node _ hnode => exact Json.hasTextTag_of_nodeOf hnode
  | omitted _ hobject => exact Json.hasTextTag_of_objectOf hobject

section

variable {spells : Expression → Json → Prop} {e : Expression} {values : List Json}

theorem length_of_fieldsSpelledBy (h : FieldsSpelledBy spells e values) :
    values.length = e.kind.fieldNames.length := by
  cases h <;> rfl

/-- A node with finite floats is made of the readings of its fields, if each child is read from the
    ways in which it is spelled. -/
theorem assemble?_of_fieldsSpelledBy (h : FieldsSpelledBy spells e values)
    (hfinite : ∀ x ∈ e.floats, x.isFinite = true)
    (hread : ∀ c ∈ e.children, ∀ j, spells c j →
      j.hasTextTag = true ∧ j.asNode.node? = some c) :
    NodeReading.assemble? e.kind (values.map fun v => some v.asNode) = some e := by
  have hlocation {location : Location} {l : Json} (hl : location.SpelledBy l) :
      l.asNode.location? = some location := by
    rw [NodeReading.location?, Json.json_asNode, Location.ofJson?_of_spelledBy hl]
  cases h with
  | attributeLookup name hl hs =>
      have hsource := (hread _ (by simp [children]) _ hs).2
      simp [kind, NodeReading.assemble?, hlocation hl, hsource, Json.string?]
  | specialLookup name hl hs =>
      have hsource := (hread _ (by simp [children]) _ hs).2
      simp [kind, NodeReading.assemble?, hlocation hl, hsource, Json.string?]
  | getattr hl hs ha =>
      have hsource := (hread _ (by simp [children]) _ hs).2
      have hselector := (hread _ (by simp [children]) _ ha).2
      simp [kind, NodeReading.assemble?, hlocation hl, hsource, hselector, NodeReading.fallback?]
  | getattrOr hl hs ha hd =>
      have hsource := (hread _ (by simp [children]) _ hs).2
      have hselector := (hread _ (by simp [children]) _ ha).2
      obtain ⟨htag, hnode⟩ := hread _ (by simp [children]) _ hd
      simp [kind, NodeReading.assemble?, hlocation hl, hsource, hselector,
        Json.fallback?_asNode htag hnode]
  | setattr hl hs ha hv =>
      have hsource := (hread _ (by simp [children]) _ hs).2
      have hselector := (hread _ (by simp [children]) _ ha).2
      have hvalue := (hread _ (by simp [children]) _ hv).2
      simp [kind, NodeReading.assemble?, hlocation hl, hsource, hselector, hvalue]
  | hasattr hl hs ha =>
      have hsource := (hread _ (by simp [children]) _ hs).2
      have hselector := (hread _ (by simp [children]) _ ha).2
      simp [kind, NodeReading.assemble?, hlocation hl, hsource, hselector]
  | constant hl hv =>
      have hvalue := Constant.ofJson?_of_spelledBy .inNode (floats_constant _ _ ▸ hfinite) hv
      simp [kind, NodeReading.assemble?, hlocation hl, hvalue]
  | var name hl => simp [kind, NodeReading.assemble?, hlocation hl, Json.string?]
  | raise hl hx =>
      have hexception := RaisedException.ofJson?_of_spelledBy .inNode hx
      simp [kind, NodeReading.assemble?, hlocation hl, hexception]
  | sideEffects hl hitems hv =>
      have heffects := mapM_eq_some_of_forall₂ (forall₂_imp_of_mem hitems fun c hc j hj =>
        (hread c (effect_mem_children hc ..) j hj).2)
      have hvalue := (hread _ (value_mem_children ..) _ hv).2
      simp [kind, NodeReading.assemble?, hlocation hl, Json.list?_asNode_arr, heffects, hvalue]
  | tuple hl hitems =>
      have helements := mapM_eq_some_of_forall₂ (forall₂_imp_of_mem hitems fun c hc j hj =>
        (hread c hc j hj).2)
      simp [kind, NodeReading.assemble?, hlocation hl, Json.list?_asNode_arr, helements]
  | call hl hc ha hk =>
      have hcalled := (hread _ (by simp [children]) _ hc).2
      have hargs := (hread _ (by simp [children]) _ ha).2
      have hkw := (hread _ (by simp [children]) _ hk).2
      simp [kind, NodeReading.assemble?, hlocation hl, hcalled, hargs, hkw]

/-- The fields of a node are spelled also once every object is sorted, if each child is. -/
theorem FieldsSpelledBy.sortNames (h : FieldsSpelledBy spells e values)
    (hsort : ∀ c ∈ e.children, ∀ j, spells c j → spells c j.sortNames) :
    FieldsSpelledBy spells e (values.map Json.sortNames) := by
  have hlists {es : List Expression} {items : List Json} (hitems : List.Forall₂ spells es items)
      (hes : es ⊆ e.children) : List.Forall₂ spells es (Json.sortItems items) := by
    rw [Json.sortItems_eq_map, List.forall₂_map_right_iff]
    exact forall₂_imp_of_mem hitems fun c hc => hsort c (hes hc)
  cases h with
  | attributeLookup name hl hs =>
      exact .attributeLookup name hl.sortNames (hsort _ (by simp [children]) _ hs)
  | specialLookup name hl hs =>
      exact .specialLookup name hl.sortNames (hsort _ (by simp [children]) _ hs)
  | getattr hl hs ha =>
      simp only [children, List.forall_mem_cons] at hsort
      exact .getattr hl.sortNames (hsort.1 _ hs) (hsort.2.1 _ ha)
  | getattrOr hl hs ha hd =>
      simp only [children, Option.toList_some, List.forall_mem_cons] at hsort
      exact .getattrOr hl.sortNames (hsort.1 _ hs) (hsort.2.1 _ ha) (hsort.2.2.1 _ hd)
  | setattr hl hs ha hv =>
      simp only [children, List.forall_mem_cons] at hsort
      exact .setattr hl.sortNames (hsort.1 _ hs) (hsort.2.1 _ ha) (hsort.2.2.1 _ hv)
  | hasattr hl hs ha =>
      simp only [children, List.forall_mem_cons] at hsort
      exact .hasattr hl.sortNames (hsort.1 _ hs) (hsort.2.1 _ ha)
  | constant hl hv => exact .constant hl.sortNames (hv.sortNames_eq.symm ▸ hv)
  | var name hl => exact .var name hl.sortNames
  | raise hl hx => exact .raise hl.sortNames hx.sortNames
  | sideEffects hl hitems hv =>
      exact .sideEffects hl.sortNames (hlists hitems fun c hc => effect_mem_children hc ..)
        (hsort _ (value_mem_children ..) _ hv)
  | tuple hl hitems => exact .tuple hl.sortNames (hlists hitems fun c hc => hc)
  | call hl hc ha hk =>
      simp only [children, List.forall_mem_cons] at hsort
      exact .call hl.sortNames (hsort.1 _ hc) (hsort.2.1 _ ha) (hsort.2.2.1 _ hk)

end

/-- A spelling of a tree stays one once the members of every object in it are sorted by name. -/
theorem SpelledBy.sortNames {e : Expression} {j : Json} (h : e.SpelledBy j) :
    e.SpelledBy j.sortNames := by
  induction e using childInduction generalizing j with
  | node e ih =>
      cases h with
      | node hfields hnode =>
          exact .node (hfields.sortNames fun c hc j hj => ih c hc hj) (Json.RecordOf.sortNames hnode)
      | omitted hfields hobject =>
          exact .omitted (hfields.sortNames fun c hc j hj => ih c hc hj) hobject.sortNames

/-- Every spelling of a tree with finite floats is read as the tree. -/
theorem node?_asNode_of_spelledBy {e : Expression} (hfinite : ∀ x ∈ e.floats, x.isFinite = true)
    {j : Json} (h : e.SpelledBy j) : j.asNode.node? = some e := by
  induction e using childInduction generalizing j with
  | node e ih =>
      have hread : ∀ c ∈ e.children, ∀ j, c.SpelledBy j →
          j.hasTextTag = true ∧ j.asNode.node? = some c := fun c hc j hj =>
        ⟨hasTextTag_of_spelledBy hj,
          ih c hc (fun x hx => hfinite x (floats_subset_of_mem_children hc hx)) hj⟩
      cases h with
      | node hfields hnode =>
          rw [Json.node?_asNode_of_nodeOf hnode (length_of_fieldsSpelledBy hfields),
            assemble?_of_fieldsSpelledBy hfields hfinite hread]
      | omitted hfields hobject =>
          rw [Json.node?_asNode_of_objectOf hobject (Nat.le_succ 3)]
          -- Without the last field the same node is made as with a `null` in it.
          refine Eq.trans ?_ (assemble?_of_fieldsSpelledBy hfields hfinite hread)
          simp [kind, Kind.fieldNames, NodeReading.assemble?, NodeReading.fallback?]

theorem ofJson?_of_spelledBy {e : Expression} (hfinite : ∀ x ∈ e.floats, x.isFinite = true)
    {j : Json} (h : e.SpelledBy j) : ofJson? j = some e := by
  rw [ofJson?, if_pos (hasTextTag_of_spelledBy h), node?_asNode_of_spelledBy hfinite h]

theorem forall₂_listToJson {spells : Expression → Json → Prop} {es : List Expression}
    (h : ∀ e ∈ es, spells e e.toJson) : List.Forall₂ spells es (listToJson es) := by
  rw [listToJson_eq_map, List.forall₂_map_right_iff, List.forall₂_same]
  exact h

/-- A node is written as the object of its fields, in order. -/
theorem exists_fieldsSpelledBy_toJson {spells : Expression → Json → Prop} {e : Expression}
    (h : ∀ c ∈ e.children, spells c c.toJson) :
    ∃ values, FieldsSpelledBy spells e values ∧
      e.toJson = .obj (("kind" :: e.kind.fieldNames).zip (e.kind.toJson :: values)) := by
  have hlocation := e.location.spelledBy_toJson
  cases e with
  | attributeLookup location source name =>
      exact ⟨_, .attributeLookup name hlocation (h source (by simp [children])), rfl⟩
  | specialLookup location source name =>
      exact ⟨_, .specialLookup name hlocation (h source (by simp [children])), rfl⟩
  | getattr location source selector fallback =>
      have hsource := h source (by cases fallback <;> simp [children])
      have hselector := h selector (by cases fallback <;> simp [children])
      cases fallback with
      | none => exact ⟨_, .getattr hlocation hsource hselector, rfl⟩
      | some fallback =>
          have hfallback := h fallback (by simp [children])
          exact ⟨_, .getattrOr hlocation hsource hselector hfallback, rfl⟩
  | setattr location source selector value =>
      simp only [children, List.forall_mem_cons] at h
      exact ⟨_, .setattr hlocation h.1 h.2.1 h.2.2.1, rfl⟩
  | hasattr location source selector =>
      simp only [children, List.forall_mem_cons] at h
      exact ⟨_, .hasattr hlocation h.1 h.2.1, rfl⟩
  | constant location value => exact ⟨_, .constant hlocation value.spelledBy_toJson, rfl⟩
  | var location name => exact ⟨_, .var name hlocation, rfl⟩
  | raise location exception => exact ⟨_, .raise hlocation exception.spelledBy_toJson, rfl⟩
  | sideEffects location effects value =>
      have heffects := forall₂_listToJson fun c hc => h c (effect_mem_children hc ..)
      exact ⟨_, .sideEffects hlocation heffects (h value (value_mem_children ..)), rfl⟩
  | tuple location elements => exact ⟨_, .tuple hlocation (forall₂_listToJson h), rfl⟩
  | call location called args kw =>
      simp only [children, List.forall_mem_cons] at h
      exact ⟨_, .call hlocation h.1 h.2.1 h.2.2.1, rfl⟩

/-- What is written of a tree is a spelling of it. -/
theorem spelledBy_toJson (e : Expression) : e.SpelledBy e.toJson := by
  induction e using childInduction with
  | node e ih =>
      obtain ⟨values, hfields, hwritten⟩ := exists_fieldsSpelledBy_toJson ih
      exact .node hfields (.object (hwritten ▸ Json.objectOf_zip _ _))

/-- What is written of a tree with finite floats is a spelling of it, and from every spelling, and
    every text of one that is not nested beyond the limit, just the tree is read. -/
theorem spellings_are_read (e : Expression) (hfinite : ∀ x ∈ e.floats, x.isFinite = true) :
    e.SpelledBy e.toJson ∧
      ∀ j, e.SpelledBy j → ofJson? j = some e ∧
        ∀ text, Json.parse? text = some j → j.isSound = true → parse? text = some e := by
  refine ⟨e.spelledBy_toJson, fun j h => ⟨ofJson?_of_spelledBy hfinite h, ?_⟩⟩
  intro text htext hsound
  rw [parse?, Json.readWhole?, htext, Option.bind_some, if_pos hsound,
    ofJson?_of_spelledBy hfinite h]

/-- A tree in which no node is spelled as it is written: members come last first and among others,
    or as an array, and the missing fallback is left out. -/
theorem spelling_of_motley_tree_is_read :
    let here : Location := ⟨"m.py", 7⟩
    let tree := sideEffects here [raise here ⟨.keyError, "gone"⟩]
      (getattr here (constant here (.tuple [.none, .float ⟨0⟩])) (var here "x") none)
    let place : Json := .obj [("column", .null), ("line", .int 7), ("file", .str "m.py")]
    let gone : Json := .arr [.obj [("KeyError", .null)], .str "gone"]
    let raised : Json := .obj [("note", .arr []), ("exception", gone),
      ("source_ref", .arr [.str "m.py", .int 7]), ("kind", .str "RaiseException")]
    let parts : List Json := [.obj [("None", .null)], .obj [("Float", .float ⟨0⟩)]]
    let source : Json := .arr [.str "ConstantRef", place, .obj [("Tuple", .arr parts)]]
    let selector : Json := .obj [("variable_name", .str "x"), ("source_ref", place),
      ("kind", .str "VariableRef")]
    let value : Json := .obj [("attribute", selector), ("source", source), ("source_ref", place),
      ("kind", .str "BuiltinGetattr")]
    let spelling : Json := .arr [.str "SideEffects", place, .arr [raised], value]
    (∀ x ∈ tree.floats, x.isFinite = true) ∧ tree.SpelledBy spelling ∧
      ofJson? spelling = some tree ∧
      ∀ text, Json.parse? text = some spelling → parse? text = some tree := by
  intro here tree place gone raised parts source selector value spelling
  have hfloats : ∀ x ∈ tree.floats, x.isFinite = true := by
    simp [tree, floats, nodes_eq, children, constant?, Constant.floats, Constant.elementsFloats]
    decide
  have hreverse {names : List String} {values : List Json} (others : List (String × Json))
      (h : ∀ m ∈ others, m.1 ∉ names) :
      Json.ObjectOf names values (.obj (names.zip values ++ others).reverse) :=
    .intro (List.reverse_perm _) h
  have hplace : here.SpelledBy place := .object (hreverse [("column", .null)] (by simp))
  have hraised : (raise here ⟨.keyError, "gone"⟩).SpelledBy raised :=
    .node (.raise .array ⟨_, .member, .array⟩) (.object (hreverse [("note", .arr [])] (by decide)))
  have hsource : (constant here (.tuple [.none, .float ⟨0⟩])).SpelledBy source :=
    .node (.constant hplace ⟨parts, rfl, .member, rfl, trivial⟩) .array
  have hselector : (var here "x").SpelledBy selector :=
    .node (.var "x" hplace) (.object (hreverse [] (List.forall_mem_nil _)))
  have hvalue : (getattr here _ _ none).SpelledBy value :=
    .omitted (.getattr hplace hsource hselector) (hreverse [] (List.forall_mem_nil _))
  have hspelled : tree.SpelledBy spelling :=
    .node (.sideEffects hplace (.cons hraised .nil) hvalue) .array
  obtain ⟨hread, htexts⟩ := (spellings_are_read tree hfloats).2 spelling hspelled
  exact ⟨hfloats, hspelled, hread, fun text htext => htexts text htext (by decide)⟩

end Expression

end AttributeOptimizer
