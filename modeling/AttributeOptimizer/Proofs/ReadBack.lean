import AttributeOptimizer.Proofs.Lexing
import AttributeOptimizer.Proofs.Numerals
import Mathlib.Tactic.Tauto

set_option autoImplicit false

/-! # Reading what was written

Both layouts of a value spell the same tokens, `Json.tokens`, and these lead to the value. Therefore
a value is read from either of its texts, provided that its numbers are (`Json.Printable`): whole
numbers of 64 bits are, and of a float it is assumed. -/

namespace AttributeOptimizer

/-- A list is read back from what was written of its members if each member is. -/
theorem mapM_map_eq_some {α β : Type} {f : β → Option α} {g : α → β} {as : List α}
    (h : ∀ a ∈ as, f (g a) = some a) : (as.map g).mapM f = some as := by
  induction as with
  | nil => rfl
  | cons a as ih =>
      obtain ⟨ha, has⟩ := List.forall_mem_cons.1 h
      rw [List.map_cons, List.mapM_cons, ha, ih has]
      rfl

/-- The document that is the text of the number is read as the number. -/
def Binary64.ReadsBack (x : Binary64) : Prop :=
  Json.parse? (x.finiteText Binary64.documentLayout) = some (.float x)

namespace Json

/-! ## The tokens of a value -/

mutual

/-- The tokens of a value. -/
def tokens : Json → List Token
  | .arr [] => [.openArray, .closeArray]
  | .arr (j :: rest) => .openArray :: tokens j ++ itemTokens rest ++ [.closeArray]
  | .obj [] => [.openObject, .closeObject]
  | .obj ((name, j) :: rest) =>
    .openObject :: .string (some name) :: .colon :: tokens j ++ memberTokens rest ++
      [.closeObject]
  | .str s => [.string (some s)]
  | j => [.word j]

/-- The tokens of the items after the first of an array. -/
def itemTokens : List Json → List Token
  | [] => []
  | j :: rest => .comma :: tokens j ++ itemTokens rest

/-- The tokens of the members after the first of an object. -/
def memberTokens : List (String × Json) → List Token
  | [] => []
  | (name, j) :: rest => .comma :: .string (some name) :: .colon :: tokens j ++ memberTokens rest

end

/-- A value that has a text which is read as the value: its whole numbers have 64 bits, and its
    floats are finite and are read back. -/
inductive Printable : Json → Prop where
  | null : Printable .null
  | bool (value : Bool) : Printable (.bool value)
  | int {value : Int} : -2 ^ 63 ≤ value → value < 2 ^ 64 → Printable (.int value)
  | float {value : Binary64} : value.isFinite = true → value.ReadsBack → Printable (.float value)
  | str (value : String) : Printable (.str value)
  | arr {items : List Json} : (∀ j ∈ items, Printable j) → Printable (.arr items)
  | obj {members : List (String × Json)} : (∀ m ∈ members, Printable m.2) →
      Printable (.obj members)

/-! ## What the tokens lead to -/

namespace Progress

/-- The first token of a value is taken as an item in the same way as elsewhere. -/
theorem take_needItem (j : Json) (rest : List Token) (stack : List Frame) :
    (tokens j ++ rest).foldl take (.needItem stack) =
      (tokens j ++ rest).foldl take (.needValue stack) := by
  unfold tokens
  split <;> rfl

theorem foldl_take_itemTokens {items : List Json} (before : List Json) (stack : List Frame)
    (h : ∀ j ∈ items, ∀ stack, (tokens j).foldl take (.needValue stack) = accept j stack) :
    (itemTokens items).foldl take (.needNext (.items before :: stack)) =
      .needNext (.items (items.reverse ++ before) :: stack) := by
  induction items generalizing before with
  | nil => rfl
  | cons j rest ih =>
      obtain ⟨hj, hrest⟩ := List.forall_mem_cons.1 h
      have hcomma : take (.needNext (.items before :: stack)) .comma =
          .needValue (.items before :: stack) := rfl
      rw [itemTokens, List.cons_append, List.foldl_cons, hcomma, List.foldl_append, hj, accept,
        ih (j :: before) hrest, List.reverse_cons, List.append_assoc]
      rfl

/-- Members as an open object keeps them. -/
def named (members : List (String × Json)) : List (Name × Json) :=
  members.map fun m => (some m.1, m.2)

theorem ofMembers_reverse_named (members : List (String × Json)) :
    ofMembers (named members).reverse = .obj members := by
  rw [ofMembers, List.reverse_reverse, named, mapM_map_eq_some]
  exact fun _ _ => rfl

theorem foldl_take_memberTokens {members : List (String × Json)} (before : List (Name × Json))
    (stack : List Frame)
    (h : ∀ m ∈ members, ∀ stack, (tokens m.2).foldl take (.needValue stack) = accept m.2 stack) :
    (memberTokens members).foldl take (.needNext (.members before :: stack)) =
      .needNext (.members ((named members).reverse ++ before) :: stack) := by
  induction members generalizing before with
  | nil => rfl
  | cons m rest ih =>
      obtain ⟨hm, hrest⟩ := List.forall_mem_cons.1 h
      have hname : [Token.comma, .string (some m.1), .colon].foldl take
          (.needNext (.members before :: stack)) = .needValue (.member before m.1 :: stack) := rfl
      have htokens : memberTokens (m :: rest) =
          [.comma, .string (some m.1), .colon] ++ (tokens m.2 ++ memberTokens rest) := rfl
      rw [htokens, List.foldl_append, hname, List.foldl_append, hm, accept,
        ih ((some m.1, m.2) :: before) hrest]
      simp [named]

theorem foldl_take_tokens {j : Json} (h : Printable j) (stack : List Frame) :
    (tokens j).foldl take (.needValue stack) = accept j stack := by
  induction h generalizing stack with
  | @arr items _ ih =>
      cases items with
      | nil => rfl
      | cons j rest =>
          obtain ⟨hj, hrest⟩ := List.forall_mem_cons.1 ih
          have hopen : take (.needValue stack) .openArray = .needItem (.items [] :: stack) := rfl
          rw [tokens, List.cons_append, List.cons_append, List.foldl_cons, hopen, List.append_assoc,
            take_needItem, List.foldl_append, hj, accept, List.foldl_append,
            foldl_take_itemTokens [j] stack hrest]
          simp [take, closeArray]
  | @obj members _ ih =>
      cases members with
      | nil => rfl
      | cons m rest =>
          obtain ⟨hm, hrest⟩ := List.forall_mem_cons.1 ih
          have hopen : [Token.openObject, .string (some m.1), .colon].foldl take
              (.needValue stack) = .needValue (.member [] m.1 :: stack) := rfl
          have htokens : tokens (.obj (m :: rest)) = [.openObject, .string (some m.1), .colon] ++
              (tokens m.2 ++ (memberTokens rest ++ [.closeObject])) := by
            simp [tokens]
          have hclose :
              (named rest).reverse ++ [(some m.1, m.2)] = (named (m :: rest)).reverse := by
            simp [named]
          rw [htokens, List.foldl_append, hopen, List.foldl_append, hm, accept, List.foldl_append,
            foldl_take_memberTokens [(some m.1, m.2)] stack hrest, hclose, List.foldl_cons,
            List.foldl_nil, take, closeObject, ofMembers_reverse_named]
  | _ => rfl

end Progress

/-! ## The texts of a value -/

/-- The blanks within the text of an array or object. -/
structure Spacing where
  /-- The blanks before a part. -/
  beforePart : List Char
  /-- The blanks before the end. -/
  beforeEnd : List Char
  /-- The blanks between a colon and its value. -/
  afterColon : List Char
  /-- They are blanks. -/
  blank : ∀ c ∈ beforePart ++ beforeEnd ++ afterColon, c = ' ' ∨ c = '\n'

namespace Spacing

/-- No blanks at all. -/
def none : Spacing := ⟨[], [], [], List.forall_mem_nil _⟩

/-- A line for each part, one level below the end. -/
def lines (level : Nat) : Spacing where
  beforePart := newLine (level + 1)
  beforeEnd := newLine level
  afterColon := [' ']
  blank := by
    intro c hc
    simp only [newLine, List.cons_append, List.mem_cons, List.mem_append, List.mem_replicate,
      List.not_mem_nil] at hc
    tauto

variable (spacing : Spacing) (text : Json → List Char)

/-- The text of an array, given the texts of its items. -/
def arrayText : List Json → List Char
  | [] => ['[', ']']
  | j :: rest =>
    '[' :: (spacing.beforePart ++ text j) ++
      rest.flatMap (fun j => ',' :: (spacing.beforePart ++ text j)) ++ spacing.beforeEnd ++ [']']

/-- The text of a member, given the text of its value. -/
def memberText (m : String × Json) : List Char :=
  spacing.beforePart ++ renderString m.1 ++ ':' :: (spacing.afterColon ++ text m.2)

/-- The text of an object, given the texts of the values of its members. -/
def objectText : List (String × Json) → List Char
  | [] => ['\x7b', '\x7d']
  | m :: rest =>
    '\x7b' :: spacing.memberText text m ++
      rest.flatMap (fun m => ',' :: spacing.memberText text m) ++ spacing.beforeEnd ++ ['\x7d']

end Spacing

theorem renderItems_eq_flatMap (items : List Json) :
    renderItems items = items.flatMap fun j => ',' :: render j := by
  induction items with
  | nil => rfl
  | cons j rest ih => rw [renderItems, ih, List.flatMap_cons]

theorem renderPrettyItems_eq_flatMap (level : Nat) (items : List Json) :
    renderPrettyItems level items =
      items.flatMap fun j => ',' :: (newLine level ++ renderPretty level j) := by
  induction items with
  | nil => rfl
  | cons j rest ih => simp [renderPrettyItems, ih]

theorem render_arr (items : List Json) :
    render (.arr items) = Spacing.none.arrayText render items := by
  cases items with
  | nil => rfl
  | cons j rest => simp [render, renderItems_eq_flatMap, Spacing.arrayText, Spacing.none]

theorem renderPretty_arr (level : Nat) (items : List Json) :
    renderPretty level (.arr items) =
      (Spacing.lines level).arrayText (renderPretty (level + 1)) items := by
  cases items with
  | nil => rfl
  | cons j rest =>
      simp [renderPretty, renderPrettyItems_eq_flatMap, Spacing.arrayText, Spacing.lines]

theorem renderMembers_eq_flatMap (members : List (String × Json)) :
    renderMembers members = members.flatMap fun m => ',' :: Spacing.none.memberText render m := by
  induction members with
  | nil => rfl
  | cons m rest ih => simp [renderMembers, ih, Spacing.memberText, Spacing.none]

theorem renderPrettyMembers_eq_flatMap (level : Nat) (members : List (String × Json)) :
    renderPrettyMembers (level + 1) members =
      members.flatMap fun m =>
        ',' :: (Spacing.lines level).memberText (renderPretty (level + 1)) m := by
  induction members with
  | nil => rfl
  | cons m rest ih => simp [renderPrettyMembers, ih, Spacing.memberText, Spacing.lines]

theorem render_obj (members : List (String × Json)) :
    render (.obj members) = Spacing.none.objectText render members := by
  cases members with
  | nil => rfl
  | cons m rest =>
      simp [render, renderMembers_eq_flatMap, Spacing.objectText, Spacing.memberText, Spacing.none]

theorem renderPretty_obj (level : Nat) (members : List (String × Json)) :
    renderPretty level (.obj members) =
      (Spacing.lines level).objectText (renderPretty (level + 1)) members := by
  cases members with
  | nil => rfl
  | cons m rest =>
      simp [renderPretty, renderPrettyMembers_eq_flatMap, Spacing.objectText, Spacing.memberText,
        Spacing.lines]

/-! ## Texts spell the tokens -/

/-- The text spells the tokens of the value, in front of any text that ends a word. -/
def IsText (text : List Char) (j : Json) : Prop :=
  ∀ ⦃after : List Token⦄ ⦃rest : List Char⦄, Spells after rest → EndsWord rest →
    Spells (tokens j ++ after) (text ++ rest)

section Blanks

variable {cs rest : List Char} (hcs : ∀ c ∈ cs, c = ' ' ∨ c = '\n')

include hcs

theorem Spells.blanks {after : List Token} (h : Spells after rest) :
    Spells after (cs ++ rest) := by
  induction cs with
  | nil => exact h
  | cons c cs ih =>
      obtain ⟨hc, hcs⟩ := List.forall_mem_cons.1 hcs
      exact .blank hc (ih hcs)

theorem endsWord_blanks (h : EndsWord rest) : EndsWord (cs ++ rest) := by
  cases cs with
  | nil => exact h
  | cons c cs =>
      rw [List.cons_append, endsWord_cons]
      rcases hcs c List.mem_cons_self with rfl | rfl <;> rfl

end Blanks

/-- A text of parts after commas ends the word before it if what follows does. -/
theorem endsWord_flatMap {α : Type} (parts : List α) (text : α → List Char) {rest : List Char}
    (h : EndsWord rest) : EndsWord (parts.flatMap (fun p => ',' :: text p) ++ rest) := by
  cases parts with
  | nil => exact h
  | cons p parts => exact endsWord_cons.2 rfl

namespace Spacing

variable (spacing : Spacing)

theorem blank_beforePart : ∀ c ∈ spacing.beforePart, c = ' ' ∨ c = '\n' :=
  fun c hc => spacing.blank c (by simp [hc])

theorem blank_beforeEnd : ∀ c ∈ spacing.beforeEnd, c = ' ' ∨ c = '\n' :=
  fun c hc => spacing.blank c (by simp [hc])

theorem blank_afterColon : ∀ c ∈ spacing.afterColon, c = ' ' ∨ c = '\n' :=
  fun c hc => spacing.blank c (by simp [hc])

variable {text : Json → List Char} {after : List Token} {rest : List Char}

theorem spells_items {items : List Json} (h : ∀ j ∈ items, IsText (text j) j)
    (hafter : Spells after rest) (hrest : EndsWord rest) :
    Spells (itemTokens items ++ after)
      (items.flatMap (fun j => ',' :: (spacing.beforePart ++ text j)) ++ rest) := by
  induction items with
  | nil => exact hafter
  | cons j items ih =>
      obtain ⟨hj, hitems⟩ := List.forall_mem_cons.1 h
      have hpart := hj (ih hitems) (endsWord_flatMap items _ hrest)
      rw [itemTokens, List.flatMap_cons]
      simp only [List.cons_append, List.append_assoc]
      exact .mark rfl (.blanks spacing.blank_beforePart hpart)

theorem isText_arrayText {items : List Json} (h : ∀ j ∈ items, IsText (text j) j) :
    IsText (spacing.arrayText text items) (.arr items) := by
  intro after rest hafter hrest
  cases items with
  | nil => exact .mark rfl (.mark rfl hafter)
  | cons j items =>
      obtain ⟨hj, hitems⟩ := List.forall_mem_cons.1 h
      have hend : Spells (.closeArray :: after) (spacing.beforeEnd ++ ']' :: rest) :=
        .blanks spacing.blank_beforeEnd (.mark rfl hafter)
      have hends : EndsWord (spacing.beforeEnd ++ ']' :: rest) :=
        endsWord_blanks spacing.blank_beforeEnd (endsWord_cons.2 rfl)
      have hfirst := hj (spacing.spells_items hitems hend hends) (endsWord_flatMap items _ hends)
      simp only [tokens, arrayText, List.cons_append, List.append_assoc, List.nil_append]
      exact .mark rfl (.blanks spacing.blank_beforePart hfirst)

theorem spells_memberText {m : String × Json} (h : IsText (text m.2) m.2)
    (hafter : Spells after rest) (hrest : EndsWord rest) :
    Spells (.string (some m.1) :: .colon :: tokens m.2 ++ after)
      (spacing.memberText text m ++ rest) := by
  simp only [memberText, List.cons_append, List.append_assoc]
  exact .blanks spacing.blank_beforePart
    (.string (.mark rfl (.blanks spacing.blank_afterColon (h hafter hrest))))

theorem spells_members {members : List (String × Json)}
    (h : ∀ m ∈ members, IsText (text m.2) m.2) (hafter : Spells after rest)
    (hrest : EndsWord rest) :
    Spells (memberTokens members ++ after)
      (members.flatMap (fun m => ',' :: spacing.memberText text m) ++ rest) := by
  induction members with
  | nil => exact hafter
  | cons m members ih =>
      obtain ⟨hm, hmembers⟩ := List.forall_mem_cons.1 h
      have hpart := spacing.spells_memberText hm (ih hmembers) (endsWord_flatMap members _ hrest)
      rw [memberTokens, List.flatMap_cons]
      simp only [List.cons_append, List.append_assoc] at hpart ⊢
      exact .mark rfl hpart

theorem isText_objectText {members : List (String × Json)}
    (h : ∀ m ∈ members, IsText (text m.2) m.2) :
    IsText (spacing.objectText text members) (.obj members) := by
  intro after rest hafter hrest
  cases members with
  | nil => exact .mark rfl (.mark rfl hafter)
  | cons m members =>
      obtain ⟨hm, hmembers⟩ := List.forall_mem_cons.1 h
      have hend : Spells (.closeObject :: after) (spacing.beforeEnd ++ '\x7d' :: rest) :=
        .blanks spacing.blank_beforeEnd (.mark rfl hafter)
      have hends : EndsWord (spacing.beforeEnd ++ '\x7d' :: rest) :=
        endsWord_blanks spacing.blank_beforeEnd (endsWord_cons.2 rfl)
      have hfirst := spacing.spells_memberText hm (spacing.spells_members hmembers hend hends)
        (endsWord_flatMap members _ hends)
      simp only [tokens, objectText, List.cons_append, List.append_assoc, List.nil_append]
        at hfirst ⊢
      exact .mark rfl hfirst

end Spacing

/-- A word that is read as the value is a text of it. -/
theorem isText_word {w : List Char} {j : Json} (hj : tokens j = [.word j])
    (hchars : ∀ c ∈ w, isWordChar c = true) (hreads : readWord? w = some j) : IsText w j := by
  intro after rest hafter hrest
  have hne : w ≠ [] := by
    rintro rfl
    cases hreads
  rw [hj]
  exact .word hne hchars hreads hrest hafter

theorem itemsReadable_iff {items : List Json} :
    itemsReadable items = true ↔ ∀ j ∈ items, j.isReadable = true := by
  induction items with
  | nil => simp [itemsReadable]
  | cons j rest ih => simp [itemsReadable, ih]

theorem membersReadable_iff {members : List (String × Json)} :
    membersReadable members = true ↔ ∀ m ∈ members, m.2.isReadable = true := by
  induction members with
  | nil => simp [membersReadable]
  | cons m rest ih => simp [membersReadable, ih]

namespace Printable

variable {j : Json}

theorem isText_null : IsText (renderScalar .null) .null :=
  isText_word rfl (List.all_eq_true.1 rfl) rfl

theorem isText_bool (value : Bool) : IsText (renderScalar (.bool value)) (.bool value) := by
  cases value with
  | false => exact isText_word (j := .bool false) rfl (List.all_eq_true.1 rfl) rfl
  | true => exact isText_word (j := .bool true) rfl (List.all_eq_true.1 rfl) rfl

theorem isText_float {x : Binary64} (hfinite : x.isFinite = true) (hreads : x.ReadsBack) :
    IsText (renderScalar (.float x)) (.float x) := by
  have hchars := Binary64.isWordChar_of_mem_finiteText Binary64.documentLayout x
  have hne : (x.finiteText Binary64.documentLayout).toList ≠ [] := by
    intro hnil
    rw [Binary64.ReadsBack, parse?, hnil] at hreads
    cases hreads
  rw [renderScalar, if_pos hfinite]
  refine isText_word (j := .float x) rfl hchars ?_
  rwa [← ofChars?_of_forall_isWordChar hne hchars]

theorem isText_int {i : Int} (hlow : -2 ^ 63 ≤ i) (hhigh : i < 2 ^ 64) :
    IsText (renderScalar (.int i)) (.int i) :=
  isText_word rfl (fun _ => isWordChar_of_mem_toString)
    (readWord?_of_readNumber? (readNumber?_toString hlow hhigh))

theorem isText_render (h : Printable j) : IsText (render j) j := by
  induction h with
  | null => exact isText_null
  | bool value => exact isText_bool value
  | int hlow hhigh => exact isText_int hlow hhigh
  | float hfinite hreads => exact isText_float hfinite hreads
  | str value => exact fun _ _ hafter _ => .string hafter
  | @arr items _ ih =>
      rw [render_arr]
      exact Spacing.none.isText_arrayText ih
  | @obj members _ ih =>
      rw [render_obj]
      exact Spacing.none.isText_objectText ih

theorem isText_renderPretty (h : Printable j) (level : Nat) : IsText (renderPretty level j) j := by
  induction h generalizing level with
  | null => exact isText_null
  | bool value => exact isText_bool value
  | int hlow hhigh => exact isText_int hlow hhigh
  | float hfinite hreads => exact isText_float hfinite hreads
  | str value => exact fun _ _ hafter _ => .string hafter
  | @arr items _ ih =>
      rw [renderPretty_arr]
      exact (Spacing.lines level).isText_arrayText fun j hj => ih j hj (level + 1)
  | @obj members _ ih =>
      rw [renderPretty_obj]
      exact (Spacing.lines level).isText_objectText fun m hm => ih m hm (level + 1)

theorem ofChars?_of_isText {text : List Char} (h : Printable j) (htext : IsText text j) :
    ofChars? text = some j := by
  have hspells : Spells (tokens j) text := by
    simpa using htext .nil endsWord_nil
  rw [ofChars?, Reader.start, hspells.finish?_eq, Progress.foldl_take_tokens h]
  rfl

/-- A value is read from either of its texts. -/
theorem parse?_compact (h : Printable j) : parse? j.compact = some j := by
  rw [parse?, compact, String.toList_ofList]
  exact h.ofChars?_of_isText h.isText_render

theorem parse?_pretty (h : Printable j) : parse? j.pretty = some j := by
  rw [parse?, pretty, String.toList_ofList]
  exact h.ofChars?_of_isText (h.isText_renderPretty 0)

theorem isReadable (h : Printable j) : j.isReadable = true := by
  induction h with
  | @arr items _ ih => exact itemsReadable_iff.2 ih
  | @obj members _ ih => exact membersReadable_iff.2 ih
  | _ => rfl

end Printable

end Json

end AttributeOptimizer
