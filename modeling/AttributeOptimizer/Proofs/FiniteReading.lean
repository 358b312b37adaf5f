import AttributeOptimizer.Json.Reader
import AttributeOptimizer.Proofs.FiniteDecimals
import Mathlib.Algebra.Group.Int.Defs
import Mathlib.Tactic.SplitIfs

set_option autoImplicit false

/-! # Documents hold finite numbers

Whatever text is read, the whole numbers in it fit in 64 bits and the floats are finite
(`parse?_ranged`): every number is so, and the reader keeps it up from one token to the next. -/

namespace AttributeOptimizer

/-- What a list is read as was read from its members. -/
theorem exists_of_mem_mapM {α β : Type} {f : α → Option β} {as : List α} {bs : List β}
    (h : as.mapM f = some bs) : ∀ b ∈ bs, ∃ a ∈ as, f a = some b := by
  induction as generalizing bs with
  | nil =>
      obtain rfl := Option.some.inj h
      exact List.forall_mem_nil _
  | cons a as ih =>
      simp only [List.mapM_cons, Option.bind_eq_bind, Option.bind_eq_some_iff] at h
      obtain ⟨first, hfirst, rest, hrest, hbs⟩ := h
      obtain rfl := Option.some.inj hbs
      refine List.forall_mem_cons.2 ⟨⟨a, List.mem_cons_self, hfirst⟩, fun b hb => ?_⟩
      obtain ⟨a', ha', hread⟩ := ih hrest b hb
      exact ⟨a', List.mem_cons_of_mem _ ha', hread⟩

namespace Json

/-- The whole numbers of a value have 64 bits, signed or unsigned, and its floats are finite. -/
inductive Ranged : Json → Prop where
  | null : Ranged .null
  | bool (value : Bool) : Ranged (.bool value)
  | int {value : Int} : -2 ^ 63 ≤ value → value < 2 ^ 64 → Ranged (.int value)
  | float {value : Binary64} : value.isFinite = true → Ranged (.float value)
  | str (value : String) : Ranged (.str value)
  | arr {items : List Json} : (∀ j ∈ items, Ranged j) → Ranged (.arr items)
  | obj {members : List (String × Json)} : (∀ m ∈ members, Ranged m.2) → Ranged (.obj members)
  | unreadable : Ranged .unreadable

/-! ## Numbers -/

/-- A decimal that is read at all is read as a finite float. -/
theorem ranged_getD_ofDecimal? (d : DecimalSpelling) :
    (((Binary64.ofDecimal? d).map float).getD unreadable).Ranged := by
  cases h : Binary64.ofDecimal? d with
  | none => exact .unreadable
  | some x => exact .float (Binary64.isFinite_of_ofDecimal? h)

theorem ranged_getD_wholeNumber (negative : Bool) (digits : List Nat) :
    ((wholeNumber negative digits).getD unreadable).Ranged := by
  have hmin : Int64.minValue.toInt.natAbs = 2 ^ 63 := by decide
  have hsize : UInt64.size = 2 ^ 64 := rfl
  unfold wholeNumber
  dsimp only
  split_ifs with _ hfits hfits
  · exact .int (by omega) (by omega)
  · exact ranged_getD_ofDecimal? _
  · exact .int (by omega) (by omega)
  · exact ranged_getD_ofDecimal? _

theorem ranged_of_readUnsigned? {negative : Bool} {cs : List Char} {j : Json}
    (h : readUnsigned? negative cs = some j) : j.Ranged := by
  unfold readUnsigned? at h
  split at h
  · cases h
  · cases h
  · split at h
    · cases h
    · split at h
      · cases h
      · obtain rfl := Option.some.inj h
        split_ifs
        · exact ranged_getD_wholeNumber _ _
        · exact ranged_getD_ofDecimal? _

theorem ranged_of_readNumber? {cs : List Char} {j : Json} (h : readNumber? cs = some j) :
    j.Ranged := by
  unfold readNumber? at h
  split at h <;> exact ranged_of_readUnsigned? h

theorem ranged_of_readWord? {cs : List Char} {j : Json} (h : readWord? cs = some j) :
    j.Ranged := by
  unfold readWord? at h
  split_ifs at h
  · exact Option.some.inj h ▸ .null
  · exact Option.some.inj h ▸ .bool true
  · exact Option.some.inj h ▸ .bool false
  · exact ranged_of_readNumber? h

/-! ## Progress -/

/-- The parts of an open array or object so far are as a value must be. -/
def Frame.Ranged : Frame → Prop
  | .items before => ∀ j ∈ before, j.Ranged
  | .members before => ∀ m ∈ before, m.2.Ranged
  | .member before _ => ∀ m ∈ before, m.2.Ranged

namespace Progress

/-- What has been read so far is as a value must be. -/
def Ranged : Progress → Prop
  | .failed => True
  | .complete value => value.Ranged
  | .needValue stack | .needItem stack | .needMember stack | .needName stack | .needColon stack
  | .needNext stack => ∀ frame ∈ stack, frame.Ranged

variable {stack : List Frame}

theorem ranged_accept {value : Json} (hvalue : value.Ranged)
    (hstack : ∀ frame ∈ stack, frame.Ranged) : (accept value stack).Ranged := by
  unfold accept
  split
  · exact hvalue
  · obtain ⟨hframe, hrest⟩ := List.forall_mem_cons.1 hstack
    exact List.forall_mem_cons.2 ⟨List.forall_mem_cons.2 ⟨hvalue, hframe⟩, hrest⟩
  · obtain ⟨hframe, hrest⟩ := List.forall_mem_cons.1 hstack
    exact List.forall_mem_cons.2 ⟨List.forall_mem_cons.2 ⟨hvalue, hframe⟩, hrest⟩
  · trivial

theorem ranged_ofMembers {before : List (Name × Json)} (h : ∀ m ∈ before, m.2.Ranged) :
    (ofMembers before).Ranged := by
  unfold ofMembers
  split
  · next members hmembers =>
      refine .obj fun m hm => ?_
      obtain ⟨named, hnamed, hname⟩ := exists_of_mem_mapM hmembers m hm
      obtain ⟨name, -, rfl⟩ := Option.map_eq_some_iff.1 hname
      exact h named (List.mem_reverse.1 hnamed)
  · exact .unreadable

theorem ranged_closeArray (hstack : ∀ frame ∈ stack, frame.Ranged) :
    (closeArray stack).Ranged := by
  unfold closeArray
  split
  · obtain ⟨hframe, hrest⟩ := List.forall_mem_cons.1 hstack
    exact ranged_accept (.arr fun j hj => hframe j (List.mem_reverse.1 hj)) hrest
  · trivial

theorem ranged_closeObject (hstack : ∀ frame ∈ stack, frame.Ranged) :
    (closeObject stack).Ranged := by
  unfold closeObject
  split
  · obtain ⟨hframe, hrest⟩ := List.forall_mem_cons.1 hstack
    exact ranged_accept (ranged_ofMembers hframe) hrest
  · trivial

theorem ranged_beginValue {token : Token} (htoken : ∀ j, token = .word j → j.Ranged)
    (hstack : ∀ frame ∈ stack, frame.Ranged) : (beginValue stack token).Ranged := by
  unfold beginValue
  split
  · exact List.forall_mem_cons.2 ⟨List.forall_mem_nil _, hstack⟩
  · exact List.forall_mem_cons.2 ⟨List.forall_mem_nil _, hstack⟩
  · exact ranged_accept (htoken _ rfl) hstack
  · exact ranged_accept (.str _) hstack
  · exact ranged_accept .unreadable hstack
  · trivial

theorem ranged_beginMember (token : Token) (hstack : ∀ frame ∈ stack, frame.Ranged) :
    (beginMember stack token).Ranged := by
  unfold beginMember
  split
  · split
    · obtain ⟨hframe, hrest⟩ := List.forall_mem_cons.1 hstack
      exact List.forall_mem_cons.2 ⟨hframe, hrest⟩
    · trivial
  · trivial

theorem ranged_afterComma (hstack : ∀ frame ∈ stack, frame.Ranged) :
    (afterComma stack).Ranged := by
  unfold afterComma
  split
  · exact hstack
  · exact hstack
  · trivial

/-- A token keeps what has been read as a value must be. -/
theorem ranged_take {progress : Progress} (h : progress.Ranged) {token : Token}
    (htoken : ∀ j, token = .word j → j.Ranged) : (progress.take token).Ranged := by
  unfold take
  split
  · exact ranged_beginValue htoken h
  · exact ranged_closeArray h
  · exact ranged_beginValue htoken h
  · exact ranged_closeObject h
  · exact ranged_beginMember _ h
  · exact ranged_beginMember _ h
  · exact h
  · exact ranged_afterComma h
  · exact ranged_closeArray h
  · exact ranged_closeObject h
  · trivial

end Progress

/-! ## The reader -/

namespace Reader

theorem ranged_endWord (before : List Char) {progress : Progress} (h : progress.Ranged) :
    (endWord before progress).Ranged := by
  unfold endWord
  split
  · next hword =>
      refine Progress.ranged_take h fun j hj => ?_
      obtain rfl := Token.word.inj hj
      exact ranged_of_readWord? hword
  · trivial

/-- The tokens of a single character have no value. -/
theorem ofChar?_ne_word (c : Char) (j : Json) : Token.ofChar? c ≠ some (.word j) := by
  unfold Token.ofChar?
  split <;> simp

theorem ranged_stepBetween {progress : Progress} (h : progress.Ranged) (c : Char) :
    (stepBetween progress c).progress.Ranged := by
  unfold stepBetween
  split_ifs
  · exact h
  · exact h
  · exact h
  · split
    · next htoken =>
        refine Progress.ranged_take h ?_
        rintro j rfl
        exact absurd htoken (ofChar?_ne_word c j)
    · trivial

theorem ranged_stepString (s : OpenString) {progress : Progress} (h : progress.Ranged) (c : Char) :
    (stepString s progress c).progress.Ranged := by
  unfold stepString
  split
  · split_ifs
    · refine Progress.ranged_take h fun j hword => ?_
      cases hword
    · exact h
    · trivial
    · exact h
  · split_ifs
    · exact h
    · split
      · exact h
      · trivial
  · split
    · trivial
    · dsimp only
      split_ifs
      · exact h
      · exact h

theorem ranged_step {r : Reader} (h : r.progress.Ranged) (c : Char) :
    (step r c).progress.Ranged := by
  unfold step
  split
  · exact ranged_stepBetween h c
  · split_ifs
    · exact h
    · exact ranged_stepBetween (ranged_endWord _ h) c
  · exact ranged_stepString _ h c

theorem ranged_foldl_step (cs : List Char) {r : Reader} (h : r.progress.Ranged) :
    (cs.foldl step r).progress.Ranged := by
  induction cs generalizing r with
  | nil => exact h
  | cons c cs ih => exact ih (ranged_step h c)

theorem ranged_of_finish? {r : Reader} (h : r.progress.Ranged) {j : Json}
    (hfinish : r.finish? = some j) : j.Ranged := by
  -- What is left of the text is taken first: the open word, if there is one.
  have hended : ∀ progress : Progress, progress.Ranged → progress = .complete j → j.Ranged := by
    rintro progress hprogress rfl
    exact hprogress
  unfold finish? at hfinish
  dsimp only at hfinish
  split at hfinish
  · next value hvalue =>
      obtain rfl := Option.some.inj hfinish
      split at hvalue
      · exact hended _ h hvalue
      · exact hended _ (ranged_endWord _ h) hvalue
      · cases hvalue
  · cases hfinish

end Reader

/-- The numbers of a value that was read are in range. -/
theorem parse?_ranged {text : String} {j : Json} (h : parse? text = some j) : j.Ranged := by
  have hstart : Reader.start.progress.Ranged := List.forall_mem_nil _
  exact Reader.ranged_of_finish? (Reader.ranged_foldl_step text.toList hstart) h

end Json

end AttributeOptimizer
