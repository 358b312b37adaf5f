set_option autoImplicit false

/-! # Slices of text

Places in a text are counted in the bytes of its UTF-8 form. A slice exists only between places that
lie between two characters. -/

namespace AttributeOptimizer.Text

/-- The text from a place on; none if the place is inside a character or beyond the end. -/
def sliceFrom? : Nat → List Char → Option (List Char)
  | 0, text => some text
  | _ + 1, [] => none
  | n + 1, c :: rest => if c.utf8Size ≤ n + 1 then sliceFrom? (n + 1 - c.utf8Size) rest else none

/-- The text up to a place; none if the place is inside a character or beyond the end. -/
def sliceTo? : Nat → List Char → Option (List Char)
  | 0, _ => some []
  | _ + 1, [] => none
  | n + 1, c :: rest =>
    if c.utf8Size ≤ n + 1 then (sliceTo? (n + 1 - c.utf8Size) rest).map (c :: ·) else none

/-- The text between two places, the first not after the second. -/
def slice? (start stop : Nat) (text : List Char) : Option (List Char) :=
  (sliceFrom? start text).bind (sliceTo? (stop - start))

theorem sliceTo?_append_sliceFrom? {n : Nat} {text before after : List Char}
    (hb : sliceTo? n text = some before) (ha : sliceFrom? n text = some after) :
    before ++ after = text := by
  induction text generalizing n before with
  | nil =>
    cases n with
    | zero => simp_all [sliceTo?, sliceFrom?]
    | succ n => simp [sliceTo?] at hb
  | cons c rest ih =>
    cases n with
    | zero => simp_all [sliceTo?, sliceFrom?]
    | succ n =>
      rw [sliceTo?] at hb
      rw [sliceFrom?] at ha
      split at hb
      · rename_i fits
        rw [if_pos fits] at ha
        obtain ⟨first, hfirst, rfl⟩ := Option.map_eq_some_iff.1 hb
        rw [List.cons_append, ih hfirst ha]
      · cases hb

end AttributeOptimizer.Text
