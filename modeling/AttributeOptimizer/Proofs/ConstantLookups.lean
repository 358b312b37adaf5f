import AttributeOptimizer.Proofs.LookupChains

set_option autoImplicit false

/-! # Lookups on constants

A pass over a chain of plain lookups on a constant looks the names up one after the other
(`Constant.follow?`) for as long as they have values. The first that has none decides the rest: a
missing attribute raises, so that the lookups above it are given up, and a method is left as it is
with all the lookups above it. In each case the tree is normal after the one pass
(`normal_afterPass_chain_constant`).

The builtins that test for an attribute and that read one agree with the plain lookup, since all
three ask the same table, in which every data attribute is listed
(`Constant.hasAttribute_of_dataAttribute?`). -/

namespace AttributeOptimizer

/-! ## Names looked up one after the other -/

namespace Constant

/-- The value of an attribute, if there is the attribute and its value is a constant. -/
def attribute? (value : Constant) (name : String) : Option Constant :=
  match value.lookupAttribute name with
  | .ok folded => folded
  | .error _ => Option.none

theorem attribute?_eq_some_iff {value folded : Constant} {name : String} :
    value.attribute? name = some folded ↔ value.lookupAttribute name = .ok (some folded) := by
  rw [attribute?]
  split <;> simp_all

theorem attribute?_eq_none_iff {value : Constant} {name : String} :
    value.attribute? name = .none ↔
      value.lookupAttribute name = .ok .none ∨
        ∃ exception, value.lookupAttribute name = .error exception := by
  rw [attribute?]
  split <;> simp_all

/-- The value at the end of the names, each looked up on the value of the one before; nothing where
    one of them has no value. -/
def follow? (value : Constant) (names : List String) : Option Constant :=
  names.foldlM attribute? value

/-- Either all names have values, or there is a first that has none: the attribute is a method, or
    is missing. -/
theorem follow?_cases (value : Constant) (steps : List (Location × String)) :
    (∃ last, value.follow? (steps.map Prod.snd) = some last) ∨
      ∃ before location name rest reached, steps = before ++ (location, name) :: rest ∧
        value.follow? (before.map Prod.snd) = some reached ∧
        (reached.lookupAttribute name = .ok .none ∨
          ∃ exception, reached.lookupAttribute name = .error exception) := by
  induction steps generalizing value with
  | nil => exact Or.inl ⟨value, rfl⟩
  | cons step rest ih =>
      obtain ⟨location, name⟩ := step
      cases hstep : value.attribute? name with
      | none =>
          exact Or.inr ⟨[], location, name, rest, value, rfl, rfl, attribute?_eq_none_iff.1 hstep⟩
      | some next =>
          have hfollow : ∀ names, value.follow? (name :: names) = next.follow? names := by
            intro names
            simp [follow?, hstep]
          rcases ih next with
            ⟨last, hlast⟩ | ⟨before, location', name', rest, reached, rfl, hreached, hstop⟩
          · exact Or.inl ⟨last, (hfollow _).trans hlast⟩
          · exact Or.inr ⟨(location, name) :: before, location', name', rest, reached, rfl,
              (hfollow _).trans hreached, hstop⟩

end Constant

/-- Plain lookups of names, each at its own location. -/
def plainLinks (steps : List (Location × String)) : List Link :=
  steps.map fun step => .plain step.1 step.2

/-- The location of the last lookup of a chain; that of the bottom if there is none. -/
def lastPlace (place : Location) (steps : List (Location × String)) : Location :=
  (steps.map Prod.fst).getLastD place

namespace Expression

/-! ## Chains on a constant -/

section Constant

variable {value reached : Constant} {name : String} (place location : Location)

theorem afterAttempt_of_value {folded : Constant}
    (h : value.lookupAttribute name = .ok (some folded)) :
    ((Link.plain location name).on (constant place value)).afterAttempt =
      constant location folded :=
  afterAttempt_of_rewrites (.lookupFolds h)

theorem afterAttempt_of_missing {exception : RaisedException}
    (h : value.lookupAttribute name = .error exception) :
    ((Link.plain location name).on (constant place value)).afterAttempt =
      raise location exception :=
  afterAttempt_of_rewrites (.lookupFails h)

theorem normal_of_method (h : value.lookupAttribute name = .ok none) :
    ((Link.plain location name).on (constant place value)).Normal := by
  refine normal_iff.2 ⟨⟨rfl, ?_⟩, List.forall_mem_singleton.2 (normal_constant place value)⟩
  rintro place value ⟨⟩
  exact h

/-- As long as the names have values, the attempts walk from value to value. -/
theorem attemptLinks_of_follow? {steps : List (Location × String)}
    (h : value.follow? (steps.map Prod.snd) = some reached) :
    (constant place value).attemptLinks (plainLinks steps) =
      constant (lastPlace place steps) reached := by
  induction steps generalizing value place with
  | nil =>
      obtain rfl : value = reached := Option.some.inj h
      rfl
  | cons step rest ih =>
      obtain ⟨next, hnext, hrest⟩ := Option.bind_eq_some_iff.1 h
      have hattempt := afterAttempt_of_value place step.1 (Constant.attribute?_eq_some_iff.1 hnext)
      have hlast : lastPlace place (step :: rest) = lastPlace step.1 rest :=
        List.getLastD_cons ..
      rw [hlast, ← ih step.1 hrest, ← hattempt]
      rfl

theorem afterPass_chain_constant (links : List Link) :
    ((constant place value).chain links).afterPass = (constant place value).attemptLinks links := by
  rw [afterPass_chain, afterPass_of_normal (normal_constant place value)]

theorem afterPass_chain_of_follow? {steps : List (Location × String)}
    (h : value.follow? (steps.map Prod.snd) = some reached) :
    ((constant place value).chain (plainLinks steps)).afterPass =
      constant (lastPlace place steps) reached := by
  rw [afterPass_chain_constant, attemptLinks_of_follow? place h]

section Stop

variable {before : List (Location × String)} (rest : List (Location × String))

/-- Behind the names that have values, the rest of the chain is on its own. -/
theorem afterPass_chain_append (h : value.follow? (before.map Prod.snd) = some reached) :
    ((constant place value).chain (plainLinks (before ++ rest))).afterPass =
      ((constant (lastPlace place before) reached).chain (plainLinks rest)).afterPass := by
  have hsplit : plainLinks (before ++ rest) = plainLinks before ++ plainLinks rest :=
    List.map_append
  rw [afterPass_chain_constant, afterPass_chain_constant, hsplit, attemptLinks_append,
    attemptLinks_of_follow? place h]

/-- From the first attribute that is missing on, the exception stands for the chain. -/
theorem afterPass_chain_of_missing {exception : RaisedException}
    (hreached : value.follow? (before.map Prod.snd) = some reached)
    (h : reached.lookupAttribute name = .error exception) :
    ((constant place value).chain (plainLinks (before ++ (location, name) :: rest))).afterPass =
      raise location exception := by
  have hraises : (raise location exception).raises = true :=
    exception.cls.derivesFrom_baseException
  rw [afterPass_chain_append place _ hreached, afterPass_chain_constant]
  show ((Link.plain location name).on _).afterAttempt.attemptLinks (plainLinks rest) = _
  rw [afterAttempt_of_missing _ location h, attemptLinks_of_raises hraises]

/-- From the first attribute that is a method on, the chain stays. -/
theorem afterPass_chain_of_method
    (hreached : value.follow? (before.map Prod.snd) = some reached)
    (h : reached.lookupAttribute name = .ok none) :
    ((constant place value).chain (plainLinks (before ++ (location, name) :: rest))).afterPass =
        (constant (lastPlace place before) reached).chain (plainLinks ((location, name) :: rest)) ∧
      ((constant (lastPlace place before) reached).chain
        (plainLinks ((location, name) :: rest))).Normal := by
  have hnormal := normal_chain (normal_of_method (lastPlace place before) location h) rfl rfl
    (plainLinks rest)
  refine ⟨?_, hnormal⟩
  rw [afterPass_chain_append place _ hreached]
  exact afterPass_of_normal hnormal

end Stop

theorem normal_afterPass_chain_constant (steps : List (Location × String)) :
    ((constant place value).chain (plainLinks steps)).afterPass.Normal := by
  rcases value.follow?_cases steps with
    ⟨last, hlast⟩ | ⟨before, location, name, rest, reached, rfl, hreached, hstop⟩
  · rw [afterPass_chain_of_follow? place hlast]
    exact normal_constant _ last
  · rcases hstop with hnone | ⟨exception, hexception⟩
    · obtain ⟨hsame, hnormal⟩ := afterPass_chain_of_method place location rest hreached hnone
      rw [hsame]
      exact hnormal
    · rw [afterPass_chain_of_missing place location rest hreached hexception]
      exact normal_raise location exception

end Constant

/-- A pass over a chain of plain lookups on a constant looks its names up one after the other. Where
    all of them have values, the last value is left, at the location of the last lookup. The first
    name that has none decides otherwise: if the attribute is missing, its exception is left, at the
    location of its lookup and whatever the names above; if it is a method, the value before it is
    left with its lookup and all those above as they were. In each case another pass keeps the very
    tree and takes nothing down. -/
theorem constant_chain_is_looked_up (value : Constant) (place : Location)
    (steps : List (Location × String)) (j : Journal) :
    ∃ once j',
      ((constant place value).chain (plainLinks steps)).pass.run j = .ok (once, j') ∧
      (∀ last, value.follow? (steps.map Prod.snd) = some last →
        once = constant (lastPlace place steps) last) ∧
      (∀ before location name rest reached, steps = before ++ (location, name) :: rest →
        value.follow? (before.map Prod.snd) = some reached →
        (∀ exception, reached.lookupAttribute name = .error exception →
          once = raise location exception) ∧
        (reached.lookupAttribute name = .ok none →
          once = (constant (lastPlace place before) reached).chain
            (plainLinks ((location, name) :: rest)))) ∧
      (value.follow? (steps.map Prod.snd) = none →
        ∃ before location name rest reached, steps = before ++ (location, name) :: rest ∧
          value.follow? (before.map Prod.snd) = some reached ∧
          (reached.lookupAttribute name = .ok none ∨
            ∃ exception, reached.lookupAttribute name = .error exception)) ∧
      ∀ k : Journal, ∃ k', once.revisePass.run k = .ok (.kept, k') ∧
        k'.changesInPass = k.changesInPass ∧ k'.records = k.records := by
  refine ⟨_, _, pass_run _ j, ?_, ?_, ?_, ?_⟩
  · intro last hlast
    exact afterPass_chain_of_follow? place hlast
  · rintro before location name rest reached rfl hreached
    constructor
    · intro exception hexception
      exact afterPass_chain_of_missing place location rest hreached hexception
    · intro hnone
      exact (afterPass_chain_of_method place location rest hreached hnone).1
  · intro hfollow
    rcases value.follow?_cases steps with ⟨last, hlast⟩ | hstops
    · rw [hfollow] at hlast
      cases hlast
    · exact hstops
  · intro k
    exact revisePass_of_normal (normal_afterPass_chain_constant place steps) k

/-- The real part of a truth value is an integer, of which the numerator is one again. Behind these
    two steps, a missing attribute raises at its own lookup, and a method stays with all above. -/
theorem truth_value_is_looked_up :
    let place (line : UInt32) : Location := ⟨"m.py", line⟩
    let valued := [(place 2, "real"), (place 3, "numerator")]
    let rest := [(place 5, "imag")]
    let after (steps : List (Location × String)) :=
      (constant (place 1) (.bool true)).chain (plainLinks steps)
    (∃ j', (after valued).pass.run (.new true) = .ok (constant (place 3) (.int 1), j')) ∧
    (∃ exception j', exception.cls = .attributeError ∧
      (after (valued ++ (place 4, "nope") :: rest)).pass.run (.new true) =
        .ok (raise (place 4) exception, j')) ∧
    ∃ once j', once = (constant (place 3) (.int 1)).chain
        (plainLinks ((place 4, "bit_length") :: rest)) ∧
      (after (valued ++ (place 4, "bit_length") :: rest)).pass.run (.new true) = .ok (once, j') ∧
      ∃ k', once.revisePass.run (.new true) = .ok (.kept, k') := by
  intro place valued rest after
  have hfollow : (Constant.bool true).follow? (valued.map Prod.snd) = some (.int 1) := rfl
  refine ⟨?_, ?_, ?_⟩
  · obtain ⟨once, j', hrun, hvalue, -⟩ :=
      constant_chain_is_looked_up (.bool true) (place 1) valued (.new true)
    obtain rfl := hvalue (.int 1) hfollow
    exact ⟨j', hrun⟩
  · obtain ⟨once, j', hrun, -, hstop, -⟩ := constant_chain_is_looked_up (.bool true) (place 1)
      (valued ++ (place 4, "nope") :: rest) (.new true)
    obtain rfl := (hstop valued (place 4) "nope" rest _ rfl hfollow).1 _ rfl
    exact ⟨_, j', rfl, hrun⟩
  · obtain ⟨once, j', hrun, -, hstop, -, hstable⟩ := constant_chain_is_looked_up (.bool true)
      (place 1) (valued ++ (place 4, "bit_length") :: rest) (.new true)
    obtain ⟨k', hkept, -⟩ := hstable (.new true)
    have honce := (hstop valued (place 4) "bit_length" rest _ rfl hfollow).2 rfl
    exact ⟨once, j', honce, hrun, k', hkept⟩

end Expression

/-! ## What a constant has -/

namespace Constant

variable {value folded : Constant} {name : String}

theorem lookupAttribute_of_hasAttribute (h : value.hasAttribute name = true) :
    value.lookupAttribute name = .ok (value.dataAttribute? name) := by
  rw [lookupAttribute, if_pos h]

theorem lookupAttribute_of_missing (h : value.hasAttribute name = false) :
    value.lookupAttribute name = .error (.missingAttribute value.typeName name) := by
  rw [lookupAttribute, h]
  rfl

/-- Every data attribute is listed in the table of its type. -/
theorem hasAttribute_of_dataAttribute? (h : value.dataAttribute? name = some folded) :
    value.hasAttribute name = true := by
  by_contra hmissing
  have hne : ∀ listed, value.hasAttribute listed = true → name ≠ listed := by
    rintro listed hlisted rfl
    exact hmissing hlisted
  cases value with
  | int i =>
      simp [dataAttribute?, hne "real" rfl, hne "numerator" rfl, hne "imag" rfl,
        hne "denominator" rfl] at h
  | bool b =>
      simp [dataAttribute?, hne "real" rfl, hne "numerator" rfl, hne "imag" rfl,
        hne "denominator" rfl] at h
  | float x => simp [dataAttribute?, hne "real" rfl, hne "imag" rfl] at h
  | _ => cases h

end Constant

namespace Expression

/-! ## Three ways to probe a constant -/

section Probes

variable (value : Constant) (name : String) (here place place' : Location)

theorem afterPass_hasattr_constant :
    (hasattr here (constant place value) (constant place' (.str name))).afterPass =
      constant here (.bool (value.hasAttribute name)) := by
  rw [afterPass_eq, overChildren_hasattr, afterPass_of_normal (normal_constant place value),
    afterPass_of_normal (normal_constant place' (.str name))]
  exact afterAttempt_of_rewrites .hasattr

theorem afterPass_getattr_constant :
    (getattr here (constant place value) (constant place' (.str name)) none).afterPass =
      attributeLookup here (constant place value) name := by
  rw [afterPass_eq, overChildren_getattr, afterPass_of_normal (normal_constant place value),
    afterPass_of_normal (normal_constant place' (.str name))]
  exact afterAttempt_of_rewrites (.getattr rfl)

/-- A lookup on a constant raises if there is no such attribute, folds if there is a value, and is
    left as it is otherwise. -/
theorem afterPass_lookup_cases :
    value.hasAttribute name = false ∧
        (attributeLookup here (constant place value) name).afterPass =
          raise here (.missingAttribute value.typeName name) ∨
      value.hasAttribute name = true ∧
        ((∃ folded, value.dataAttribute? name = some folded ∧
            (attributeLookup here (constant place value) name).afterPass = constant here folded) ∨
          value.dataAttribute? name = none ∧
            (attributeLookup here (constant place value) name).afterPass =
              attributeLookup here (constant place value) name) := by
  have hattempt : (attributeLookup here (constant place value) name).afterPass =
      (attributeLookup here (constant place value) name).afterAttempt := by
    rw [afterPass_eq, overChildren_attributeLookup,
      afterPass_of_normal (normal_constant place value)]
  rw [hattempt]
  cases hlisted : value.hasAttribute name with
  | false =>
      have hlookup := Constant.lookupAttribute_of_missing hlisted
      exact Or.inl ⟨rfl, afterAttempt_of_missing place here hlookup⟩
  | true =>
      have hlookup := Constant.lookupAttribute_of_hasAttribute hlisted
      refine Or.inr ⟨rfl, ?_⟩
      cases hdata : value.dataAttribute? name with
      | some folded =>
          rw [hdata] at hlookup
          exact Or.inl ⟨folded, rfl, afterAttempt_of_value place here hlookup⟩
      | none =>
          rw [hdata] at hlookup
          have hterminal := (normal_of_method place here hlookup).terminal
          exact Or.inr ⟨rfl, afterAttempt_of_terminal hterminal⟩

/-- What a pass leaves of a lookup on a constant is an attribute error exactly if there is no such
    attribute. -/
theorem afterPass_lookup_attributeError_iff :
    (∃ site exception,
        (attributeLookup here (constant place value) name).afterPass = raise site exception ∧
          exception.cls = .attributeError) ↔
      value.hasAttribute name = false := by
  rcases afterPass_lookup_cases value name here place with
    ⟨hmissing, hafter⟩ | ⟨hlisted, hvalue⟩
  · exact iff_of_true ⟨here, _, hafter, rfl⟩ hmissing
  · refine iff_of_false ?_ (by simp [hlisted])
    rintro ⟨site, exception, hraise, -⟩
    rcases hvalue with ⟨folded, -, hafter⟩ | ⟨-, hafter⟩ <;> cases hafter.symm.trans hraise

section Run

variable {settings : Settings}

theorem tree_outcome_hasattr_constant (hpasses : 1 ≤ settings.maxPasses) :
    ((hasattr here (constant place value) (constant place' (.str name))).outcome settings).tree =
      constant here (.bool (value.hasAttribute name)) := by
  have hafter := afterPass_hasattr_constant value name here place place'
  have hnormal := normal_constant here (.bool (value.hasAttribute name))
  rw [← hafter] at hnormal
  rw [tree_outcome_of_normal_afterPass hnormal hpasses, hafter]

theorem tree_outcome_lookup_constant (hpasses : 1 ≤ settings.maxPasses) :
    ((attributeLookup here (constant place value) name).outcome settings).tree =
      (attributeLookup here (constant place value) name).afterPass :=
  tree_outcome_of_normal_afterPass (normal_afterPass_chain_constant place [(here, name)]) hpasses

/-- The pass over the lookup through the builtin leaves the plain lookup, with which a run over that
    begins; so both runs get to the same tree. -/
theorem tree_outcome_getattr_constant (hpasses : 2 ≤ settings.maxPasses) :
    ((getattr here (constant place value) (constant place' (.str name)) none).outcome
        settings).tree =
      (attributeLookup here (constant place value) name).afterPass := by
  have hnormal : (attributeLookup here (constant place value) name).afterPass.Normal :=
    normal_afterPass_chain_constant place [(here, name)]
  obtain ⟨left, hleft⟩ := Nat.exists_eq_add_of_le' hpasses
  rw [outcome, tree_outcomeFrom_eq_iterate, hleft, Function.iterate_succ_apply,
    Function.iterate_succ_apply, afterPass_getattr_constant]
  exact Function.iterate_fixed (afterPass_of_normal hnormal) left

end Run

end Probes

/-- In runs of at least three passes, the builtin that tests a constant for an attribute, the one
    that reads it and the plain lookup agree. The test becomes a truth value, and the other two the
    same tree: an attribute error exactly if the test is false, and otherwise the value of a data
    attribute, or the plain lookup as it was. No data attribute fails the test. -/
theorem probes_of_constant_agree (value : Constant) (name : String) (here place place' : Location)
    {settings : Settings} (hpasses : 3 ≤ settings.maxPasses) :
    let source := constant place value
    let selector := constant place' (.str name)
    let lookup := attributeLookup here source name
    ∃ b tested read plain,
      optimize settings (hasattr here source selector) = .ok tested ∧
      optimize settings (getattr here source selector none) = .ok read ∧
      optimize settings lookup = .ok plain ∧
      tested.tree = constant here (.bool b) ∧ read.tree = plain.tree ∧
      ((∃ site exception, plain.tree = raise site exception ∧ exception.cls = .attributeError) ↔
        b = false) ∧
      (b = true →
        (∃ folded, value.dataAttribute? name = some folded ∧ plain.tree = constant here folded) ∨
          value.dataAttribute? name = none ∧ plain.tree = lookup) ∧
      ∀ folded, value.dataAttribute? name = some folded → b = true := by
  intro source selector lookup
  have htested := tree_outcome_hasattr_constant value name here place place'
    (show 1 ≤ settings.maxPasses by omega)
  have hplain := tree_outcome_lookup_constant value name here place
    (show 1 ≤ settings.maxPasses by omega)
  have hread := tree_outcome_getattr_constant value name here place place'
    (show 2 ≤ settings.maxPasses by omega)
  have hmissing := afterPass_lookup_attributeError_iff value name here place
  have hcases := afterPass_lookup_cases value name here place
  rw [← hplain] at hmissing hcases
  refine ⟨value.hasAttribute name, _, _, _, optimize_eq .., optimize_eq .., optimize_eq ..,
    htested, hread.trans hplain.symm, hmissing, ?_,
    fun _ => Constant.hasAttribute_of_dataAttribute?⟩
  intro hlisted
  rcases hcases with ⟨hunlisted, -⟩ | ⟨-, hvalue⟩
  · rw [hunlisted] at hlisted
    cases hlisted
  · exact hvalue

/-- A truth value has a denominator, as an integer has, and a float has none. -/
theorem denominators_are_probed :
    let here : Location := ⟨"m.py", 1⟩
    let probed (value : Constant) := hasattr here (constant here value)
      (constant here (.str "denominator"))
    let read (value : Constant) := getattr here (constant here value)
      (constant here (.str "denominator")) none
    (∃ o o', optimize .standard (probed (.bool true)) = .ok o ∧
      optimize .standard (read (.bool true)) = .ok o' ∧
      o.tree = constant here (.bool true) ∧ o'.tree = constant here (.int 1)) ∧
    ∃ o o' site exception, optimize .standard (probed (.float .zero)) = .ok o ∧
      optimize .standard (read (.float .zero)) = .ok o' ∧
      o.tree = constant here (.bool false) ∧ o'.tree = raise site exception ∧
      exception.cls = .attributeError := by
  intro here probed read
  have hpasses : 3 ≤ Settings.standard.maxPasses := by decide
  constructor
  · obtain ⟨b, o, o', plain, ho, ho', -, htested, hread, -, hvalue, hlisted⟩ :=
      probes_of_constant_agree (.bool true) "denominator" here here here hpasses
    obtain rfl : b = true := hlisted (.int 1) rfl
    refine ⟨o, o', ho, ho', htested, ?_⟩
    rw [hread]
    rcases hvalue rfl with ⟨folded, hdata, htree⟩ | ⟨hnone, -⟩
    · rw [htree, ← Option.some.inj hdata]
    · cases hnone
  · obtain ⟨b, o, o', plain, ho, ho', -, htested, hread, hmissing, -⟩ :=
      probes_of_constant_agree (.float .zero) "denominator" here here here hpasses
    have hb : b = false := by
      cases ho
      cases htested
      rfl
    obtain ⟨site, exception, htree, hclass⟩ := hmissing.2 hb
    rw [hb] at htested
    exact ⟨o, o', site, exception, ho, ho', htested, hread.trans htree, hclass⟩

end Expression

end AttributeOptimizer
