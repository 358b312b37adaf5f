import AttributeOptimizer.Proofs.Spellings

set_option autoImplicit false

/-! # Reading written trees

The document of a tree is one of the spellings that are read as the tree, and it is printable if the
floats of the tree are finite and read back. So a tree is read from its text in either layout, as
long as the text is not nested too deeply. -/

namespace AttributeOptimizer

namespace Expression

theorem ofJson?_toJson {e : Expression} (h : ∀ x ∈ e.floats, x.isFinite = true) :
    ofJson? e.toJson = some e :=
  ofJson?_of_spelledBy h e.spelledBy_toJson

theorem printable_recordOf (kind : Kind) (location : Location) {fields : List (String × Json)}
    (h : ∀ f ∈ fields, f.2.Printable) : (recordOf kind location fields).Printable :=
  .obj (List.forall_mem_cons.2 ⟨.str _, List.forall_mem_cons.2 ⟨location.printable, h⟩⟩)

/-- A tree whose floats are finite and read back is written in a way that is read back. -/
theorem printable {e : Expression} (h : ∀ x ∈ e.floats, x.isFinite = true ∧ x.ReadsBack) :
    e.toJson.Printable := by
  induction e using childInduction with
  | node e ih =>
      have hchildren : ∀ c ∈ e.children, c.toJson.Printable :=
        fun c hc => ih c hc fun x hx => h x (floats_subset_of_mem_children hc hx)
      cases e with
      | attributeLookup location source name =>
          have hsource := hchildren source (by simp [children])
          exact printable_recordOf _ _ (by simp [hsource, Json.Printable.str])
      | specialLookup location source name =>
          have hsource := hchildren source (by simp [children])
          exact printable_recordOf _ _ (by simp [hsource, Json.Printable.str])
      | getattr location source selector fallback =>
          cases fallback with
          | none =>
              simp only [children, List.forall_mem_cons] at hchildren
              exact printable_recordOf _ _ (by simp [hchildren, Json.Printable.null])
          | some fallback =>
              simp only [children, Option.toList_some, List.forall_mem_cons] at hchildren
              exact printable_recordOf _ _ (by simp [hchildren])
      | setattr location source selector value =>
          simp only [children, List.forall_mem_cons] at hchildren
          exact printable_recordOf _ _ (by simp [hchildren])
      | hasattr location source selector =>
          simp only [children, List.forall_mem_cons] at hchildren
          exact printable_recordOf _ _ (by simp [hchildren])
      | constant location value =>
          have hvalue := Constant.printable (floats_constant location value ▸ h)
          exact printable_recordOf _ _ (by simp [hvalue])
      | var location name => exact printable_recordOf _ _ (by simp [Json.Printable.str])
      | raise location exception =>
          exact printable_recordOf _ _ (by simp [exception.printable])
      | sideEffects location effects value =>
          have heffects : (Json.arr (listToJson effects)).Printable := by
            rw [listToJson_eq_map]
            exact .arr (List.forall_mem_map.2 fun c hc => hchildren c (effect_mem_children hc ..))
          have hvalue := hchildren value (value_mem_children ..)
          exact printable_recordOf _ _ (by simp [heffects, hvalue])
      | tuple location elements =>
          have helements : (Json.arr (listToJson elements)).Printable := by
            rw [listToJson_eq_map]
            exact .arr (List.forall_mem_map.2 hchildren)
          exact printable_recordOf _ _ (by simp [helements])
      | call location called args kw =>
          simp only [children, List.forall_mem_cons] at hchildren
          exact printable_recordOf _ _ (by simp [hchildren])

/-! ## Texts -/

/-- A document of a tree that is read back is read as the tree, if nesting allows. -/
theorem parse?_of_parse?_eq {e : Expression}
    (h : ∀ x ∈ e.floats, x.isFinite = true ∧ x.ReadsBack) {text : String}
    (htext : Json.parse? text = some e.toJson) :
    parse? text = if e.toJson.depth ≤ Json.depthLimit then some e else none := by
  have hread : ofJson? e.toJson = some e := ofJson?_toJson fun x hx => (h x hx).1
  rw [parse?, Json.readWhole?, htext, Option.bind_some, Json.isSound, (printable h).isReadable,
    Bool.true_and, hread]
  simp only [decide_eq_true_eq]

theorem parse?_compact {e : Expression} (h : ∀ x ∈ e.floats, x.isFinite = true ∧ x.ReadsBack) :
    parse? e.toJson.compact = if e.toJson.depth ≤ Json.depthLimit then some e else none :=
  parse?_of_parse?_eq h (printable h).parse?_compact

theorem parse?_pretty {e : Expression} (h : ∀ x ∈ e.floats, x.isFinite = true ∧ x.ReadsBack) :
    parse? e.toJson.pretty = if e.toJson.depth ≤ Json.depthLimit then some e else none :=
  parse?_of_parse?_eq h (printable h).parse?_pretty

/-- Every tree whose floats are finite, and read back, and whose text is not nested beyond the limit
    is read from its text, in either layout. -/
theorem parse?_text_eq_self (e : Expression) (hfinite : ∀ x ∈ e.floats, x.isFinite = true)
    (hreads : ∀ x ∈ e.floats, x.ReadsBack) (hdepth : e.toJson.depth ≤ Json.depthLimit) :
    parse? e.toJson.compact = some e ∧ parse? e.toJson.pretty = some e := by
  have hfloats : ∀ x ∈ e.floats, x.isFinite = true ∧ x.ReadsBack :=
    fun x hx => ⟨hfinite x hx, hreads x hx⟩
  rw [parse?_compact hfloats, parse?_pretty hfloats, if_pos hdepth]
  exact ⟨rfl, rfl⟩

theorem readsBack_five_halves : Binary64.ReadsBack ⟨0x4004000000000000⟩ := by
  have htext : Binary64.finiteText Binary64.documentLayout ⟨0x4004000000000000⟩ = "2.5" := by
    decide +kernel
  have hvalue : Binary64.ofDecimal? ⟨false, [2], [5], 0⟩ = some ⟨0x4004000000000000⟩ := by
    decide +kernel
  have hword : Json.readWord? ['2', '.', '5'] = some (.float ⟨0x4004000000000000⟩) := by
    simp [Json.readWord?, Json.readNumber?, Json.readUnsigned?, Json.spanDigits, Json.digit?,
      Json.readFraction?, Json.readExponent?, hvalue]
  rw [Binary64.ReadsBack, htext]
  exact (Json.ofChars?_of_forall_isWordChar (by decide) (List.all_eq_true.1 rfl)).trans hword

/-- A tree with all sorts of constants, names, fallbacks and empty sequences. -/
theorem motley_tree_is_read :
    let here : Location := ⟨"dir/\u00e9\"\\.py", 4294967295⟩
    let key : Constant := .str "a\tb\u0001😀"
    let pairs : List (Constant × Constant) := [(key, .float ⟨0x4004000000000000⟩), (key, .none)]
    let source := constant here (.tuple [.dict pairs, .bytes [0, 255], .tuple [], .ellipsis])
    let tree := sideEffects here [raise here ⟨.keyError, ""⟩, sideEffects here [] (var here "x")]
      (tuple here [getattr here source (constant here (.int Int64.minValue)) none,
        getattr here (tuple here []) (var here "y") (some (constant here (.float ⟨0⟩)))])
    tree.toJson.depth ≤ Json.depthLimit ∧
      parse? tree.toJson.compact = some tree ∧ parse? tree.toJson.pretty = some tree := by
  intro here key pairs source tree
  have hfloats : tree.floats = [⟨0x4004000000000000⟩, ⟨0⟩] := by
    simp [tree, source, pairs, key, floats, nodes_eq, children, constant?, Constant.floats,
      Constant.elementsFloats, Constant.pairsFloats]
  have hdepth : tree.toJson.depth ≤ Json.depthLimit := by
    decide
  refine ⟨hdepth, parse?_text_eq_self tree ?_ ?_ hdepth⟩
  · rw [hfloats]
    decide
  · rw [hfloats, List.forall_mem_cons, List.forall_mem_singleton]
    exact ⟨readsBack_five_halves, rfl⟩

end Expression

end AttributeOptimizer
