import AttributeOptimizer.Format.Values
import AttributeOptimizer.Proofs.Floats
import AttributeOptimizer.Proofs.ReadBack
import Mathlib.Data.List.Forall2
import Mathlib.Data.List.Nodup

set_option autoImplicit false

/-! # Spelling and reading records

A record can be spelled in several ways (`Json.RecordOf`), and so can the tag of a value without
data (`Json.TagOf`). `SpelledBy` gathers the spellings of a location, of an exception and of a
constant; the document that is written of a value is one of them, and a spelling stays one once the
members of every object in it are sorted by name. From every spelling of a location, of an exception
or of a constant with finite floats just that is read. What is written is printable where the floats
read back. -/

namespace AttributeOptimizer

theorem mapM_congr {α β : Type} {f g : α → Option β} {as : List α} (h : ∀ a ∈ as, f a = g a) :
    as.mapM f = as.mapM g := by
  induction as with
  | nil => rfl
  | cons a as ih =>
      obtain ⟨ha, has⟩ := List.forall_mem_cons.1 h
      rw [List.mapM_cons, List.mapM_cons, ha, ih has]

theorem forall₂_imp_of_mem {α β : Type} {R S : α → β → Prop} {as : List α} {bs : List β}
    (h : List.Forall₂ R as bs) (himp : ∀ a ∈ as, ∀ b, R a b → S a b) : List.Forall₂ S as bs := by
  induction h with
  | nil => exact .nil
  | cons hab _ ih =>
      obtain ⟨ha, has⟩ := List.forall_mem_cons.1 himp
      exact .cons (ha _ hab) (ih has)

/-- A list is read from a list whose members are read as its members. -/
theorem mapM_eq_some_of_forall₂ {α β : Type} {f : β → Option α} {as : List α} {bs : List β}
    (h : List.Forall₂ (fun a b => f b = some a) as bs) : bs.mapM f = some as := by
  induction h with
  | nil => rfl
  | cons hab _ ih =>
      rw [List.mapM_cons, hab, ih]
      rfl

namespace Json

/-! ## Records -/

/-- The objects that give values to the first of some names: the members come in any order and
    among others, whose names are none of these. -/
inductive ObjectOf (names : List String) (values : List Json) : Json → Prop where
  | intro {members others : List (String × Json)} :
      members.Perm (names.zip values ++ others) → (∀ m ∈ others, m.1 ∉ names) →
      ObjectOf names values (.obj members)

/-- The spellings of a record whose fields have the given names and values: an object, or the array
    of the values. -/
inductive RecordOf (names : List String) (values : List Json) : Json → Prop where
  | object {j : Json} : ObjectOf names values j → RecordOf names values j
  | array : RecordOf names values (.arr values)

/-- The spellings of a tag: a string, or an object whose only member has that name and no data. -/
inductive TagOf (tag : String) : Json → Prop where
  | string : TagOf tag (.str tag)
  | member : TagOf tag (.obj [(tag, .null)])

/-- An object that gives certain values gives, once every object is sorted, the sorted values. -/
theorem ObjectOf.sortNames {names : List String} {values : List Json} {j : Json}
    (h : ObjectOf names values j) : ObjectOf names (values.map Json.sortNames) j.sortNames := by
  cases h with
  | @intro members others horder hothers =>
      have hmembers : (sortMembers members).Perm
          (names.zip (values.map Json.sortNames) ++ others.map (Prod.map id Json.sortNames)) := by
        rw [sortMembers_eq_map, List.zip_map_right, ← List.map_append]
        exact horder.map _
      exact .intro ((List.mergeSort_perm ..).trans hmembers) (List.forall_mem_map.2 hothers)

theorem RecordOf.sortNames {names : List String} {values : List Json} {j : Json}
    (h : RecordOf names values j) : RecordOf names (values.map Json.sortNames) j.sortNames := by
  cases h with
  | object hobject => exact .object hobject.sortNames
  | array =>
      rw [Json.sortNames, sortItems_eq_map]
      exact .array

@[simp] theorem sortNames_obj_singleton (name : String) (j : Json) :
    (obj [(name, j)]).sortNames = .obj [(name, j.sortNames)] := by
  simp [Json.sortNames, sortMembers]

theorem sortItems_eq_self {α : Type} {as : List α} {items : List Json}
    (h : List.Forall₂ (fun _ j => j.sortNames = j) as items) : sortItems items = items := by
  induction h with
  | nil => rfl
  | cons hj _ ih => rw [sortItems, hj, ih]

theorem TagOf.sortNames_eq {tag : String} {j : Json} (h : TagOf tag j) : j.sortNames = j := by
  cases h with
  | string => rfl
  | member => exact sortNames_obj_singleton tag .null

theorem objectOf_zip (names : List String) (values : List Json) :
    ObjectOf names values (.obj (names.zip values)) :=
  .intro (List.Perm.of_eq (List.append_nil _).symm) (List.forall_mem_nil _)

section

variable {α : Type} {name : String}

/-- The order of named values does not matter. -/
theorem only?_of_perm {values values' : List (String × α)} (h : values.Perm values') :
    only? values name = only? values' name := by
  have hfilter := h.filter fun v => decide (v.1 = name)
  unfold only?
  generalize values.filter (fun v => decide (v.1 = name)) = found at hfilter ⊢
  generalize values'.filter (fun v => decide (v.1 = name)) = found' at hfilter ⊢
  -- No value, or a single one, is the same in any order; and if one list has two, so has the other.
  match found' with
  | [] => rw [hfilter.eq_nil]
  | [v] => rw [List.perm_singleton.1 hfilter]
  | v :: w :: rest =>
      have hlength := hfilter.length_eq
      rcases found with - | ⟨a, - | ⟨b, more⟩⟩
      · simp at hlength
      · simp at hlength
      · rfl

/-- Values with other names do not matter. -/
theorem only?_append_of_ne {values others : List (String × α)} (h : ∀ v ∈ others, v.1 ≠ name) :
    only? (values ++ others) name = only? values name := by
  have hnone : others.filter (fun v => decide (v.1 = name)) = [] :=
    List.filter_eq_nil_iff.2 fun v hv => by simpa using h v hv
  rw [only?, only?, List.filter_append, hnone, List.append_nil]

theorem only?_cons_self {values : List (String × α)} (h : ∀ v ∈ values, v.1 ≠ name) (value : α) :
    only? ((name, value) :: values) name = some (some value) := by
  have hself : only? ([(name, value)] ++ values) name = only? [(name, value)] name :=
    only?_append_of_ne h
  rw [List.singleton_append] at hself
  rw [hself, only?, List.filter_cons_of_pos (by simp), List.filter_nil]

/-- Of names and values in order each value is found under its name, and nothing under the names
    that are left over. -/
theorem mapM_only?_zip {names : List String} (h : names.Nodup) {values : List α}
    (hlength : values.length ≤ names.length) :
    names.mapM (only? (names.zip values)) =
      some (values.map some ++ List.replicate (names.length - values.length) none) := by
  induction names generalizing values with
  | nil =>
      obtain rfl := List.length_eq_zero_iff.1 (Nat.le_zero.1 hlength)
      rfl
  | cons name names ih =>
      obtain ⟨hname, hnames⟩ := List.nodup_cons.1 h
      cases values with
      | nil =>
          have hrest : names.mapM (only? (names.zip ([] : List α))) =
              some (([] : List α).map some ++ List.replicate (names.length - 0) none) :=
            ih hnames (Nat.zero_le names.length)
          rw [List.zip_nil_right] at hrest ⊢
          rw [List.mapM_cons, hrest]
          rfl
      | cons value values =>
          have hothers : ∀ v ∈ names.zip values, v.1 ≠ name := by
            rintro v hv rfl
            exact hname (List.of_mem_zip hv).1
          have hrest : names.mapM (only? ((name, value) :: names.zip values)) =
              names.mapM (only? (names.zip values)) := by
            refine mapM_congr fun other hother => ?_
            have hne : name ≠ other := fun heq => hname (heq ▸ hother)
            rw [only?, only?, List.filter_cons_of_neg (by simpa using hne)]
          rw [List.zip_cons_cons, List.mapM_cons, hrest, only?_cons_self hothers,
            ih hnames (Nat.le_of_succ_le_succ hlength), List.length_cons, List.length_cons,
            Nat.succ_sub_succ]
          rfl

/-- The fields are found in values that come in any order and among others. -/
theorem mapM_only?_of_perm {names : List String} {values : List α} {given others : List (String × α)}
    (horder : given.Perm (names.zip values ++ others)) (hothers : ∀ v ∈ others, v.1 ∉ names)
    (hnames : names.Nodup) (hlength : values.length ≤ names.length) :
    names.mapM (only? given) =
      some (values.map some ++ List.replicate (names.length - values.length) none) := by
  rw [← mapM_only?_zip hnames hlength]
  refine mapM_congr fun name hname => ?_
  rw [only?_of_perm horder, only?_append_of_ne]
  rintro v hv rfl
  exact hothers v hv hname

end

/-- The fields of a record are read from every spelling of it. -/
theorem fields?_of_recordOf {names : List String} {values : List Json} {j : Json}
    (h : RecordOf names values j) (hnames : names.Nodup) (hlength : values.length = names.length) :
    j.fields? names = some (values.map some) := by
  cases h with
  | object hobject =>
      cases hobject with
      | intro horder hothers =>
          rw [fields?, mapM_only?_of_perm horder hothers hnames (Nat.le_of_eq hlength), hlength,
            Nat.sub_self, List.replicate_zero, List.append_nil]
  | array => exact if_pos hlength

theorem intBetween?_of_le {low high i : Int} (hlow : low ≤ i) (hhigh : i ≤ high) :
    (Json.int i).intBetween? low high = some i :=
  if_pos ⟨hlow, hhigh⟩

end Json

theorem Context.tag?_of_tagOf (context : Context) {tag : String} {j : Json}
    (h : Json.TagOf tag j) : context.tag? j = some tag := by
  cases h with
  | string => rfl
  | member => rfl

/-! ## Locations and exceptions -/

namespace Location

/-- The spellings of a location. -/
def SpelledBy (location : Location) (j : Json) : Prop :=
  Json.RecordOf ["file", "line"] [.str location.file, .int location.line.toNat] j

theorem lineOfJson?_toNat (line : UInt32) :
    lineOfJson? (.int line.toNat) = some line := by
  have hbound : (line.toNat : Int) ≤ UInt32.size - 1 := by
    have := line.toNat_lt
    simp only [UInt32.size]
    omega
  rw [lineOfJson?, Json.intBetween?_of_le (Int.natCast_nonneg _) hbound]
  simp

theorem ofJson?_of_spelledBy {location : Location} {j : Json} (h : location.SpelledBy j) :
    ofJson? j = some location := by
  rw [ofJson?, Json.fields?_of_recordOf h (by decide) rfl]
  simp [Json.string?, lineOfJson?_toNat]

theorem SpelledBy.sortNames {location : Location} {j : Json} (h : location.SpelledBy j) :
    location.SpelledBy j.sortNames :=
  Json.RecordOf.sortNames h

theorem spelledBy_toJson (location : Location) : location.SpelledBy location.toJson :=
  .object (Json.objectOf_zip _ _)

theorem printable (location : Location) : location.toJson.Printable := by
  have hline := location.line.toNat_lt
  refine .obj (List.forall_mem_cons.2 ⟨.str _, List.forall_mem_singleton.2 (.int ?_ ?_)⟩)
  · omega
  · omega

end Location

namespace RaisedException

/-- The spellings of an exception. -/
def SpelledBy (e : RaisedException) (j : Json) : Prop :=
  ∃ cls, Json.TagOf e.cls.name cls ∧ Json.RecordOf ["kind", "message"] [cls, .str e.message] j

theorem ofName?_name (cls : ExceptionClass) : ExceptionClass.ofName? cls.name = some cls := by
  cases cls <;> rfl

theorem ofJson?_of_spelledBy (context : Context) {e : RaisedException} {j : Json}
    (h : e.SpelledBy j) : ofJson? context j = some e := by
  obtain ⟨cls, htag, hrecord⟩ := h
  rw [ofJson?, Json.fields?_of_recordOf hrecord (by decide) rfl]
  simp [Json.string?, ExceptionClass.ofJson?, context.tag?_of_tagOf htag, ofName?_name]

theorem SpelledBy.sortNames {e : RaisedException} {j : Json} (h : e.SpelledBy j) :
    e.SpelledBy j.sortNames := by
  obtain ⟨cls, htag, hrecord⟩ := h
  refine ⟨cls, htag, ?_⟩
  have hsorted := hrecord.sortNames
  rwa [List.map_cons, htag.sortNames_eq] at hsorted

theorem spelledBy_toJson (e : RaisedException) : e.SpelledBy e.toJson :=
  ⟨e.cls.toJson, .string, .object (Json.objectOf_zip _ _)⟩

theorem printable (e : RaisedException) : e.toJson.Printable :=
  .obj (List.forall_mem_cons.2 ⟨.str _, List.forall_mem_singleton.2 (.str _)⟩)

end RaisedException

/-! ## Constants -/

namespace Constant

mutual

/-- The spellings of a constant: it is written as in documents, but for the tag of a constant
    without data. -/
def SpelledBy : Constant → Json → Prop
  | .none, j => Json.TagOf "None" j
  | .bool value, j => j = .obj [("Bool", .bool value)]
  | .int value, j => j = .obj [("Int", .int value.toInt)]
  | .float value, j => j = .obj [("Float", if value.isFinite then .float value else .null)]
  | .str value, j => j = .obj [("Str", .str value)]
  | .bytes value, j => j = .obj [("Bytes", .arr (value.map fun b => .int b.toNat))]
  | .tuple elements, j => ∃ items, j = .obj [("Tuple", .arr items)] ∧ AllSpelledBy elements items
  | .dict pairs, j => ∃ items, j = .obj [("Dict", .arr items)] ∧ PairsSpelledBy pairs items
  | .ellipsis, j => Json.TagOf "Ellipsis" j

/-- The spellings of the elements of a tuple. -/
def AllSpelledBy : List Constant → List Json → Prop
  | [], [] => True
  | c :: cs, j :: js => SpelledBy c j ∧ AllSpelledBy cs js
  | _, _ => False

/-- The spellings of the pairs of a dictionary. -/
def PairsSpelledBy : List (Constant × Constant) → List Json → Prop
  | [], [] => True
  | (key, value) :: pairs, j :: js =>
    (∃ k v, j = .arr [k, v] ∧ SpelledBy key k ∧ SpelledBy value v) ∧ PairsSpelledBy pairs js
  | _, _ => False

end

theorem allSpelledBy_iff {elements : List Constant} {items : List Json} :
    AllSpelledBy elements items ↔ List.Forall₂ SpelledBy elements items := by
  induction elements generalizing items with
  | nil => cases items <;> simp [AllSpelledBy]
  | cons c elements ih => cases items <;> simp [AllSpelledBy, ih]

theorem pairsSpelledBy_iff {pairs : List (Constant × Constant)} {items : List Json} :
    PairsSpelledBy pairs items ↔
      List.Forall₂ (fun p j => ∃ k v, j = .arr [k, v] ∧ SpelledBy p.1 k ∧ SpelledBy p.2 v)
        pairs items := by
  induction pairs generalizing items with
  | nil => cases items <;> simp [PairsSpelledBy]
  | cons p pairs ih => cases items <;> simp [PairsSpelledBy, ih]

theorem pairsOfJson?_of_forall₂ {context : Context} {pairs : List (Constant × Constant)}
    {items : List Json}
    (h : List.Forall₂ (fun p j => ∃ k v, j = .arr [k, v] ∧ ofJson? context k = some p.1 ∧
      ofJson? context v = some p.2) pairs items) :
    pairsOfJson? context items = some pairs := by
  induction h with
  | nil => rfl
  | cons hp _ ih =>
      obtain ⟨k, v, rfl, hkey, hvalue⟩ := hp
      rw [pairsOfJson?, hkey, hvalue, ih]
      rfl

theorem byteOfJson?_toNat (b : UInt8) : byteOfJson? (.int b.toNat) = some b := by
  have hbound := b.toNat_lt
  rw [byteOfJson?, Json.intBetween?_of_le (Int.natCast_nonneg _) (by omega)]
  simp

/-- A constant with finite floats is read from every spelling of it. -/
theorem ofJson?_of_spelledBy (context : Context) {c : Constant}
    (hfinite : ∀ x ∈ c.floats, x.isFinite = true) {j : Json} (h : c.SpelledBy j) :
    ofJson? context j = some c := by
  induction c using partInduction generalizing j with
  | constant c ih =>
      have hparts : ∀ p ∈ c.parts, ∀ j, p.SpelledBy j → ofJson? context j = some p :=
        fun p hp j hj => ih p hp (fun x hx => hfinite x (floats_subset_of_mem_parts hp hx)) hj
      cases c with
      | none => cases h <;> rfl
      | ellipsis => cases h <;> rfl
      | bool value => exact h ▸ rfl
      | str value => exact h ▸ rfl
      | int value =>
          rw [SpelledBy] at h
          calc
            ofJson? context j =
                ((Json.int value.toInt).intBetween? Int64.minValue.toInt
                  Int64.maxValue.toInt).map fun i => int (Int64.ofInt i) := h ▸ rfl
            _ = some (int value) := by
              rw [Json.intBetween?_of_le value.minValue_le_toInt value.toInt_le, Option.map_some,
                Int64.ofInt_toInt]
      | float value =>
          have hvalue : value.isFinite = true := hfinite value List.mem_cons_self
          rw [SpelledBy, if_pos hvalue] at h
          simp [h, ofJson?, ofScalar?, Context.isNoData, Json.float?]
      | bytes value =>
          have hbytes : (value.map fun b => Json.int b.toNat).mapM byteOfJson? = some value :=
            mapM_map_eq_some fun b _ => byteOfJson?_toNat b
          rw [SpelledBy] at h
          rw [h, ofJson?, if_pos rfl, hbytes]
          rfl
      | tuple elements =>
          obtain ⟨items, rfl, hitems⟩ := h
          have helements : elementsOfJson? context items = some elements := by
            rw [elementsOfJson?_eq_mapM]
            exact mapM_eq_some_of_forall₂ (forall₂_imp_of_mem (allSpelledBy_iff.1 hitems) hparts)
          simp [ofJson?, helements]
      | dict pairs =>
          obtain ⟨items, rfl, hitems⟩ := h
          have hpairs : pairsOfJson? context items = some pairs := by
            refine pairsOfJson?_of_forall₂ (forall₂_imp_of_mem (pairsSpelledBy_iff.1 hitems) ?_)
            rintro p hp j ⟨k, v, rfl, hk, hv⟩
            exact ⟨k, v, rfl, hparts p.1 (key_mem_parts hp) k hk,
              hparts p.2 (value_mem_parts hp) v hv⟩
          simp [ofJson?, hpairs]

/-- No object in a spelling of a constant has several members to sort. -/
theorem SpelledBy.sortNames_eq {c : Constant} {j : Json} (h : c.SpelledBy j) :
    j.sortNames = j := by
  induction c using partInduction generalizing j with
  | constant c ih =>
      cases c with
      | none => exact Json.TagOf.sortNames_eq h
      | ellipsis => exact Json.TagOf.sortNames_eq h
      | bool value => cases h; exact Json.sortNames_obj_singleton ..
      | int value => cases h; exact Json.sortNames_obj_singleton ..
      | str value => cases h; exact Json.sortNames_obj_singleton ..
      | float value =>
          cases h
          rw [Json.sortNames_obj_singleton]
          split <;> rfl
      | bytes value =>
          cases h
          rw [Json.sortNames_obj_singleton, Json.sortNames, Json.sortItems_eq_map, List.map_map]
          rfl
      | tuple elements =>
          obtain ⟨items, rfl, hitems⟩ := h
          have hsorted : Json.sortItems items = items :=
            Json.sortItems_eq_self (forall₂_imp_of_mem (allSpelledBy_iff.1 hitems)
              fun c hc _ hj => ih c hc hj)
          rw [Json.sortNames_obj_singleton, Json.sortNames, hsorted]
      | dict pairs =>
          obtain ⟨items, rfl, hitems⟩ := h
          have hsorted : Json.sortItems items = items := by
            refine Json.sortItems_eq_self (forall₂_imp_of_mem (pairsSpelledBy_iff.1 hitems) ?_)
            rintro p hp j ⟨k, v, rfl, hk, hv⟩
            have hkey := ih p.1 (key_mem_parts hp) hk
            have hvalue := ih p.2 (value_mem_parts hp) hv
            simp [Json.sortNames, Json.sortItems, hkey, hvalue]
          rw [Json.sortNames_obj_singleton, Json.sortNames, hsorted]

/-- What is written of a constant is a spelling of it. -/
theorem spelledBy_toJson (c : Constant) : c.SpelledBy c.toJson := by
  induction c using partInduction with
  | constant c ih =>
      cases c with
      | none => exact .string
      | ellipsis => exact .string
      | tuple elements =>
          refine ⟨_, rfl, allSpelledBy_iff.2 ?_⟩
          rw [elementsToJson_eq_map, List.forall₂_map_right_iff, List.forall₂_same]
          exact ih
      | dict pairs =>
          refine ⟨_, rfl, pairsSpelledBy_iff.2 ?_⟩
          rw [pairsToJson_eq_map, List.forall₂_map_right_iff, List.forall₂_same]
          intro p hp
          exact ⟨_, _, rfl, ih p.1 (key_mem_parts hp), ih p.2 (value_mem_parts hp)⟩
      | _ => rfl

theorem printable {c : Constant} (h : ∀ x ∈ c.floats, x.isFinite = true ∧ x.ReadsBack) :
    c.toJson.Printable := by
  induction c using partInduction with
  | constant c ih =>
      have hparts : ∀ p ∈ c.parts, p.toJson.Printable :=
        fun p hp => ih p hp fun x hx => h x (floats_subset_of_mem_parts hp hx)
      cases c with
      | none => exact .str _
      | ellipsis => exact .str _
      | bool value => exact .obj (List.forall_mem_singleton.2 (.bool value))
      | str value => exact .obj (List.forall_mem_singleton.2 (.str value))
      | int value =>
          have hhigh := value.toInt_lt
          exact .obj (List.forall_mem_singleton.2 (.int value.le_toInt (by omega)))
      | float value =>
          obtain ⟨hfinite, hreads⟩ := h value List.mem_cons_self
          rw [toJson, if_pos hfinite]
          exact .obj (List.forall_mem_singleton.2 (.float hfinite hreads))
      | bytes value =>
          refine .obj (List.forall_mem_singleton.2 (.arr ?_))
          intro j hj
          obtain ⟨b, -, rfl⟩ := List.mem_map.1 hj
          have hbound := b.toNat_lt
          exact .int (by omega) (by omega)
      | tuple elements =>
          refine .obj (List.forall_mem_singleton.2 (.arr ?_))
          rw [elementsToJson_eq_map, List.forall_mem_map]
          exact hparts
      | dict pairs =>
          refine .obj (List.forall_mem_singleton.2 (.arr ?_))
          rw [pairsToJson_eq_map, List.forall_mem_map]
          intro p hp
          have hkey := hparts p.1 (key_mem_parts hp)
          have hvalue := hparts p.2 (value_mem_parts hp)
          exact .arr (List.forall_mem_cons.2 ⟨hkey, List.forall_mem_singleton.2 hvalue⟩)

end Constant

end AttributeOptimizer
