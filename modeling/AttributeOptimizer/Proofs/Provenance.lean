import AttributeOptimizer.Proofs.ChangeReport

set_option autoImplicit false

/-! # Where locations come from

The rules make new nodes, and each of them stands where the node stood that it replaces or that it
was made for. So no rule brings a location into a tree that was not there
(`locations_subset_of_rewrites`), neither does a pass (`locations_afterPass_subset`), and whatever
an optimized tree or the record of a change points at is a place of the tree that was given. -/

namespace AttributeOptimizer

namespace Expression

/-- The locations of the nodes of a tree. -/
def locations (e : Expression) : List Location := e.nodes.map location

theorem locations_subset_iff {e : Expression} {places : List Location} :
    e.locations ⊆ places ↔
      e.location ∈ places ∧ ∀ c ∈ e.children, c.locations ⊆ places := by
  simp only [locations, List.subset_def, List.forall_mem_map]
  exact forall_mem_nodes

theorem location_mem_locations {n e : Expression} (h : n ∈ e.nodes) : n.location ∈ e.locations :=
  List.mem_map_of_mem h

theorem locations_subset_of_mem_children {c e : Expression} (h : c ∈ e.children) :
    c.locations ⊆ e.locations :=
  (locations_subset_iff.1 (List.Subset.refl e.locations)).2 c h

/-! ## One rule -/

/-- The nodes of a replacement stand where nodes of the replaced tree stand. -/
theorem locations_subset_of_rewrites {node replacement : Expression} {tag : ChangeTag}
    {description : String} (h : Rewrites node replacement tag description) :
    replacement.locations ⊆ node.locations := by
  have hroot : node.location ∈ node.locations := location_mem_locations (self_mem_nodes node)
  have hbelow : ∀ c ∈ node.children, ∀ n ∈ c.nodes, n.location ∈ node.locations :=
    fun c hc n hn => locations_subset_of_mem_children hc (location_mem_locations hn)
  intro place hplace
  obtain ⟨n, hn, rfl⟩ := List.mem_map.1 hplace
  -- What the rule makes stands at the node itself, and all else stood below it.
  exact forall_mem_nodes_of_rewrites (p := fun n => n.location ∈ node.locations) h hbelow
    (fun _ _ => hroot) (fun _ _ hmade => hmade ▸ hroot) n hn

/-! ## One pass -/

theorem locations_overChildren_subset {f : Expression → Expression} {e : Expression}
    (h : ∀ c ∈ e.children, (f c).locations ⊆ c.locations) :
    (e.overChildren f).locations ⊆ e.locations := by
  rw [locations_subset_iff, location_overChildren]
  refine ⟨location_mem_locations (self_mem_nodes e), forall_mem_children_overChildren.2 ?_⟩
  exact fun c hc => List.Subset.trans (h c hc) (locations_subset_of_mem_children hc)

theorem locations_afterPass_subset (e : Expression) : e.afterPass.locations ⊆ e.locations := by
  induction e using childInduction with
  | node e ih =>
      have hchildren := locations_overChildren_subset ih
      rcases afterPass_cases e with ⟨hsame, -⟩ | ⟨tag, description, hrewrites⟩
      · rwa [hsame]
      · exact List.Subset.trans (locations_subset_of_rewrites hrewrites) hchildren

/-- A change that a pass reports points at the node that it is about. -/
theorem location_mem_of_mem_changeLog {e : Expression} {change : ChangeTag × Location × String}
    (h : change ∈ e.changeLog) : change.2.1 ∈ e.locations := by
  obtain ⟨attempted, hattempted, hchange⟩ := List.mem_filterMap.1 h
  obtain ⟨n, hn, rfl⟩ := mem_attempts.1 hattempted
  have hlocation : change.2.1 = (n.overChildren afterPass).location := by
    unfold change? at hchange
    split at hchange
    · cases hchange
    · obtain rfl := Option.some.inj hchange
      rfl
  rw [hlocation, location_overChildren]
  exact location_mem_locations hn

/-! ## Runs -/

theorem location_mem_of_mem_changes {tree : Expression} {recording : Bool} {done left : Nat}
    {r : ChangeRecord} (h : r ∈ (outcomeFrom recording done left tree).changes) :
    r.location ∈ tree.locations := by
  induction left generalizing done tree with
  | zero => cases h
  | succ left ih =>
      have hpass : ∀ r ∈ if recording then tree.changeLog.map (ChangeRecord.ofChange (done + 1))
          else [], r.location ∈ tree.locations := by
        split
        · exact List.forall_mem_map.2 fun change hchange => location_mem_of_mem_changeLog hchange
        · exact List.forall_mem_nil _
      rw [outcomeFrom] at h
      split at h
      · exact hpass r h
      · rcases List.mem_append.1 h with h | h
        · exact hpass r h
        · exact locations_afterPass_subset tree (ih h)

/-- Whatever the settings, the nodes of an optimized tree and the records of its changes point only
    at places where the given tree has nodes. -/
theorem locations_come_from_tree (settings : Settings) (tree : Expression) :
    ∃ o, optimize settings tree = .ok o ∧ o.tree.locations ⊆ tree.locations ∧
      o.changes.map ChangeRecord.location ⊆ tree.locations := by
  refine ⟨tree.outcome settings, optimize_eq settings tree, ?_, ?_⟩
  · exact tree_outcomeFrom (p := fun e => e.locations ⊆ tree.locations)
      (fun e he => List.Subset.trans (locations_afterPass_subset e) he) (List.Subset.refl _) _ _ _
  · intro place hplace
    obtain ⟨r, hr, rfl⟩ := List.mem_map.1 hplace
    exact location_mem_of_mem_changes hr

end Expression

end AttributeOptimizer
