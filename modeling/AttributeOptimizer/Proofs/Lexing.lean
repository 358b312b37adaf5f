import AttributeOptimizer.Json.Printer
import AttributeOptimizer.Json.Reader

set_option autoImplicit false

/-! # Texts as tokens

A text spells a sequence of tokens, `Json.Spells`, when it is made of their texts in order with
blanks between them. The reader takes such a text as it takes the tokens (`Spells.finish?_eq`), so
that nothing else has to be known of how characters are read. -/

namespace AttributeOptimizer

namespace Json

/-! ## Texts of tokens -/

/-- Whether a word that stands before the text would end there. -/
def EndsWord (text : List Char) : Prop := ∀ c ∈ text.head?, isWordChar c = false

@[simp] theorem endsWord_nil : EndsWord [] := by simp [EndsWord]

@[simp] theorem endsWord_cons {c : Char} {rest : List Char} :
    EndsWord (c :: rest) ↔ isWordChar c = false := by
  simp [EndsWord]

namespace Reader

variable {progress : Progress}

theorem step_blank {c : Char} (h : c = ' ' ∨ c = '\n') :
    step ⟨.between, progress⟩ c = ⟨.between, progress⟩ := by
  rcases h with rfl | rfl <;> rfl

theorem step_mark {c : Char} {token : Token} (h : Token.ofChar? c = some token) :
    step ⟨.between, progress⟩ c = ⟨.between, progress.take token⟩ := by
  unfold Token.ofChar? at h
  split at h <;> first | (obtain rfl := Option.some.inj h; rfl) | cases h

theorem stepBetween_wordChar {c : Char} (h : isWordChar c = true) :
    stepBetween progress c = ⟨.word [c], progress⟩ := by
  have hblank : ¬(c = ' ' ∨ c = '\n' ∨ c = '\t' ∨ c = '\r') := by
    rintro (rfl | rfl | rfl | rfl) <;> exact Bool.noConfusion h
  have hquote : c ≠ '"' := by
    rintro rfl
    exact Bool.noConfusion h
  rw [stepBetween, if_neg hblank, if_neg hquote, if_pos h]

theorem foldl_step_word {w : List Char} (before : List Char)
    (h : ∀ c ∈ w, isWordChar c = true) :
    w.foldl step ⟨.word before, progress⟩ = ⟨.word (w.reverse ++ before), progress⟩ := by
  induction w generalizing before with
  | nil => rfl
  | cons c w ih =>
      obtain ⟨hc, hw⟩ := List.forall_mem_cons.1 h
      have hstep : step ⟨.word before, progress⟩ c = ⟨.word (c :: before), progress⟩ := if_pos hc
      rw [List.foldl_cons, hstep, ih (c :: before) hw, List.reverse_cons, List.append_assoc]
      rfl

/-- A word that was begun between tokens is open with all its characters. -/
theorem foldl_step_between {w : List Char} (hne : w ≠ [])
    (h : ∀ c ∈ w, isWordChar c = true) :
    w.foldl step ⟨.between, progress⟩ = ⟨.word w.reverse, progress⟩ := by
  cases w with
  | nil => exact absurd rfl hne
  | cons c w =>
      obtain ⟨hc, hw⟩ := List.forall_mem_cons.1 h
      have hstep : step ⟨.between, progress⟩ c = ⟨.word [c], progress⟩ := stepBetween_wordChar hc
      rw [List.foldl_cons, hstep, foldl_step_word [c] hw, List.reverse_cons]

theorem endWord_of_readWord? {w : List Char} {j : Json} (h : readWord? w = some j) :
    endWord w.reverse progress = progress.take (.word j) := by
  rw [endWord, List.reverse_reverse, h]

/-- An open word ends with the text, or before the next character that no word can have. -/
theorem finish?_word {w rest : List Char} {j : Json} (h : readWord? w = some j)
    (hrest : EndsWord rest) :
    (rest.foldl step ⟨.word w.reverse, progress⟩).finish? =
      (rest.foldl step ⟨.between, progress.take (.word j)⟩).finish? := by
  cases rest with
  | nil => simp only [List.foldl_nil, finish?, endWord_of_readWord? h]
  | cons c rest =>
      have hc : isWordChar c = false := endsWord_cons.1 hrest
      have hstep : step ⟨.word w.reverse, progress⟩ c =
          step ⟨.between, progress.take (.word j)⟩ c := by
        simp only [step, hc, endWord_of_readWord? h]
        rfl
      rw [List.foldl_cons, List.foldl_cons, hstep]

/-! ### Strings -/

theorem hexDigit?_digitChar {d : Nat} (h : d < 16) : hexDigit? (Nat.digitChar d) = some d := by
  revert d
  decide

/-- A code below the surrogates is the character of that code. -/
theorem pushCode_toNat (before : List Char) (mode : StringMode) {c : Char}
    (h : c.toNat < 0xD800) :
    OpenString.pushCode ⟨before, true, none, mode⟩ c.toNat =
      ⟨c :: before, true, none, .plain⟩ := by
  rw [OpenString.pushCode, if_neg (by omega), if_neg (by omega), Char.ofNat_toNat]
  rfl

theorem foldl_step_code (before : List Char) {c : Char} (h : c.toNat < 0x20) :
    ['\\', 'u', '0', '0', Nat.digitChar (c.toNat / 16), Nat.digitChar (c.toNat % 16)].foldl step
        ⟨.string ⟨before, true, none, .plain⟩, progress⟩ =
      ⟨.string ⟨c :: before, true, none, .plain⟩, progress⟩ := by
  have hopen : ['\\', 'u', '0', '0'].foldl step
      ⟨.string ⟨before, true, none, .plain⟩, progress⟩ =
        ⟨.string ⟨before, true, none, .code 2 0⟩, progress⟩ := rfl
  have hfirst : step ⟨.string ⟨before, true, none, .code 2 0⟩, progress⟩
      (Nat.digitChar (c.toNat / 16)) =
        ⟨.string ⟨before, true, none, .code 1 (c.toNat / 16)⟩, progress⟩ := by
    simp [step, stepString, hexDigit?_digitChar (show c.toNat / 16 < 16 by omega)]
  have hsecond : step ⟨.string ⟨before, true, none, .code 1 (c.toNat / 16)⟩, progress⟩
      (Nat.digitChar (c.toNat % 16)) =
        ⟨.string ⟨c :: before, true, none, .plain⟩, progress⟩ := by
    simp only [step, stepString, hexDigit?_digitChar (show c.toNat % 16 < 16 by omega),
      Nat.div_add_mod', Nat.le_refl, if_true]
    rw [pushCode_toNat before _ (by omega)]
  calc
    _ = [Nat.digitChar (c.toNat / 16), Nat.digitChar (c.toNat % 16)].foldl step
          (['\\', 'u', '0', '0'].foldl step ⟨.string ⟨before, true, none, .plain⟩, progress⟩) := rfl
    _ = ⟨.string ⟨c :: before, true, none, .plain⟩, progress⟩ := by
      rw [hopen, List.foldl_cons, hfirst, List.foldl_cons, hsecond, List.foldl_nil]

theorem foldl_step_escapeChar (before : List Char) (c : Char) :
    (escapeChar c).foldl step ⟨.string ⟨before, true, none, .plain⟩, progress⟩ =
      ⟨.string ⟨c :: before, true, none, .plain⟩, progress⟩ := by
  unfold escapeChar
  split <;> try rfl
  split
  · exact foldl_step_code before ‹_›
  · next hquote hbackslash _ _ _ _ _ hplain =>
      simp only [List.foldl_cons, List.foldl_nil, step, stepString]
      rw [if_neg (fun h => hquote h), if_neg (fun h => hbackslash h), if_neg hplain]
      rfl

theorem foldl_step_escaped (before cs : List Char) :
    (cs.flatMap escapeChar).foldl step ⟨.string ⟨before, true, none, .plain⟩, progress⟩ =
      ⟨.string ⟨cs.reverse ++ before, true, none, .plain⟩, progress⟩ := by
  induction cs generalizing before with
  | nil => rfl
  | cons c cs ih =>
      rw [List.flatMap_cons, List.foldl_append, foldl_step_escapeChar, ih, List.reverse_cons,
        List.append_assoc]
      rfl

theorem foldl_step_renderString (s : String) :
    (renderString s).foldl step ⟨.between, progress⟩ =
      ⟨.between, progress.take (.string (some s))⟩ := by
  have hopen : step ⟨.between, progress⟩ '"' = ⟨.string .empty, progress⟩ := rfl
  have htext : OpenString.text? ⟨s.toList.reverse, true, none, .plain⟩ = some s := by
    simp [OpenString.text?, OpenString.dropHalf]
  rw [renderString, List.cons_append, List.foldl_cons, hopen, List.foldl_append, OpenString.empty,
    foldl_step_escaped, List.append_nil, List.foldl_cons, List.foldl_nil]
  simp only [step, stepString, if_true, htext]

end Reader

/-! ## Texts of token sequences -/

/-- The text is made of the texts of the tokens, in order, with blanks between them. -/
inductive Spells : List Token → List Char → Prop where
  | nil : Spells [] []
  | blank {c : Char} {tokens : List Token} {rest : List Char} :
      c = ' ' ∨ c = '\n' → Spells tokens rest → Spells tokens (c :: rest)
  | mark {c : Char} {token : Token} {tokens : List Token} {rest : List Char} :
      Token.ofChar? c = some token → Spells tokens rest → Spells (token :: tokens) (c :: rest)
  | string {s : String} {tokens : List Token} {rest : List Char} :
      Spells tokens rest → Spells (.string (some s) :: tokens) (renderString s ++ rest)
  | word {w : List Char} {j : Json} {tokens : List Token} {rest : List Char} :
      w ≠ [] → (∀ c ∈ w, isWordChar c = true) → readWord? w = some j →
      EndsWord rest → Spells tokens rest →
      Spells (.word j :: tokens) (w ++ rest)

namespace Spells

open Reader

/-- The reader ends where the tokens lead. -/
theorem finish?_eq {tokens : List Token} {text : List Char} (h : Spells tokens text)
    (progress : Progress) :
    (text.foldl step ⟨.between, progress⟩).finish? =
      (⟨.between, tokens.foldl Progress.take progress⟩ : Reader).finish? := by
  induction h generalizing progress with
  | nil => rfl
  | blank hblank _ ih => rw [List.foldl_cons, step_blank hblank, ih]
  | mark hmark _ ih => rw [List.foldl_cons, step_mark hmark, ih, List.foldl_cons]
  | string _ ih => rw [List.foldl_append, foldl_step_renderString, ih, List.foldl_cons]
  | word hne hchars hreads hrest _ ih =>
      rw [List.foldl_append, foldl_step_between hne hchars, finish?_word hreads hrest, ih,
        List.foldl_cons]

end Spells

/-- Alone in its text, a word is read as what it is. -/
theorem ofChars?_of_forall_isWordChar {w : List Char} (hne : w ≠ [])
    (h : ∀ c ∈ w, isWordChar c = true) : ofChars? w = readWord? w := by
  rw [ofChars?, Reader.start, Reader.foldl_step_between hne h, Reader.finish?]
  simp only [Reader.endWord, List.reverse_reverse]
  cases readWord? w <;> rfl

end Json

end AttributeOptimizer
