import AttributeOptimizer.Binary64.Basic

set_option autoImplicit false

/-! # JSON values

The document format that trees are read from and written to. Whole numbers and others are different
values, and the members of an object keep their order and may repeat a name. A text may hold scalars
that the format's grammar allows and that have no value: a number beyond every finite word, or a
string with half a surrogate pair. They are kept as `Json.unreadable`, since a reader that skips a
member need not care. -/

namespace AttributeOptimizer

/-- A JSON value. -/
inductive Json where
  | null
  | bool (value : Bool)
  /-- A number without point and exponent that fits in 64 bits, signed or unsigned. -/
  | int (value : Int)
  /-- Any other number. -/
  | float (value : Binary64)
  | str (value : String)
  | arr (items : List Json)
  | obj (members : List (String × Json))
  /-- A scalar that is well-formed and has no value, or an object with a name of that sort. -/
  | unreadable

namespace Json

instance : Inhabited Json := ⟨.null⟩

mutual

/-- How many arrays and objects are nested in each other. -/
def depth : Json → Nat
  | .arr items => depthOfItems items + 1
  | .obj members => depthOfMembers members + 1
  | _ => 0

/-- The depth of the deepest item. -/
def depthOfItems : List Json → Nat
  | [] => 0
  | j :: rest => max (depth j) (depthOfItems rest)

/-- The depth of the deepest member. -/
def depthOfMembers : List (String × Json) → Nat
  | [] => 0
  | (_, j) :: rest => max (depth j) (depthOfMembers rest)

end

mutual

/-- Whether every part has a value. -/
def isReadable : Json → Bool
  | .arr items => itemsReadable items
  | .obj members => membersReadable members
  | .unreadable => false
  | _ => true

/-- Whether every item has a value. -/
def itemsReadable : List Json → Bool
  | [] => true
  | j :: rest => isReadable j && itemsReadable rest

/-- Whether every member has a value. -/
def membersReadable : List (String × Json) → Bool
  | [] => true
  | (_, j) :: rest => isReadable j && membersReadable rest

end

/-- The greatest depth that a document may have. -/
def depthLimit : Nat := 127

/-- Whether a value can be read as a whole: every part has a value, and it is not too deep. -/
def isSound (j : Json) : Bool := j.isReadable && decide (j.depth ≤ depthLimit)

/-- The first member of an object with a name. -/
def member? (j : Json) (name : String) : Option Json :=
  match j with
  | .obj members => members.lookup name
  | _ => none

mutual

/-- The same value with the members of every object sorted by name. -/
def sortNames : Json → Json
  | .arr items => .arr (sortItems items)
  | .obj members => .obj ((sortMembers members).mergeSort fun a b => !decide (b.1 < a.1))
  | j => j

/-- The same items with the members of every object in them sorted by name. -/
def sortItems : List Json → List Json
  | [] => []
  | j :: rest => sortNames j :: sortItems rest

/-- The same members, in the same order, with the members of every object in them sorted. -/
def sortMembers : List (String × Json) → List (String × Json)
  | [] => []
  | (name, j) :: rest => (name, sortNames j) :: sortMembers rest

end

theorem sortItems_eq_map (items : List Json) : sortItems items = items.map sortNames := by
  induction items with
  | nil => rfl
  | cons j rest ih => rw [sortItems, ih, List.map_cons]

theorem sortMembers_eq_map (members : List (String × Json)) :
    sortMembers members = members.map fun m => (m.1, sortNames m.2) := by
  induction members with
  | nil => rfl
  | cons m rest ih => rw [sortMembers, ih, List.map_cons]

end Json

end AttributeOptimizer
