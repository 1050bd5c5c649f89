import EnvLayers.Proofs.Graph.Local
import EnvLayers.Proofs.Graph.Ties

/-
Module: EnvLayers.Proofs.Graph.SameEdges
Purpose: Graphs, and roots, that differ only in edges that are there already. They are searched
  alike and fail alike, and they list the same ids, in the same order exactly when the last edges to
  them stand in the same order.
Main exports: Graph.SameEdges, SameEdges.discovered_eq, SameEdges.closure_error_iff,
  SameEdges.exists_closure, SameEdges.order_eq_iff, closure_eq_of_eraseDups_eq
-/

namespace EnvLayers.Graph

/-- Two graphs declare the same ids, and each id has the same targets in the same order when only
their first occurrences count. -/
structure SameEdges (g g' : Graph) (follow : Requirement → Bool) : Prop where
  ids : g'.ids = g.ids
  targets : ∀ id, (g'.targets follow id).eraseDups = (g.targets follow id).eraseDups

variable {g g' : Graph} {follow : Requirement → Bool} {roots roots' : List String}
  {requirements requirements' : List Requirement} {id : String}

namespace SameEdges

theorem refl (g : Graph) (follow : Requirement → Bool) : g.SameEdges g follow :=
  ⟨rfl, fun _ => rfl⟩

theorem symm (h : g.SameEdges g' follow) : g'.SameEdges g follow :=
  ⟨h.ids.symm, fun id => (h.targets id).symm⟩

/-! ### Searching -/

theorem leads_eq (h : g.SameEdges g' follow) : g'.Leads follow = g.Leads follow := by
  funext u v
  rw [← mem_targets_iff, ← mem_targets_iff, mem_iff_of_eraseDups_eq (h.targets u)]

theorem reaches_of_reaches (h : g.SameEdges g' follow) (hroots : roots'.eraseDups = roots.eraseDups)
    (hid : g'.Reaches follow roots' id) : g.Reaches follow roots id := by
  induction hid with
  | root hroot =>
      exact .root ((mem_iff_of_eraseDups_eq hroots).mp hroot)
  | step _ huv ih =>
      rw [h.leads_eq] at huv
      exact ih.step huv

theorem reaches_eq (h : g.SameEdges g' follow) (hroots : roots'.eraseDups = roots.eraseDups) :
    g'.Reaches follow roots' = g.Reaches follow roots := by
  funext id
  exact propext ⟨h.reaches_of_reaches hroots, h.symm.reaches_of_reaches hroots.symm⟩

theorem complete_iff (h : g.SameEdges g' follow) (hroots : roots'.eraseDups = roots.eraseDups) :
    g'.Complete follow roots' ↔ g.Complete follow roots := by
  rw [Complete, Complete, h.reaches_eq hroots, h.ids]

theorem cyclic_iff (h : g.SameEdges g' follow) (hroots : roots'.eraseDups = roots.eraseDups) :
    g'.Cyclic follow roots' ↔ g.Cyclic follow roots := by
  rw [Cyclic, Cyclic, h.reaches_eq hroots, h.leads_eq]

/-- The walks end in the same ids, in the order of their first occurrences. -/
theorem eraseDups_walkEnds (h : g.SameEdges g' follow)
    (hroots : roots'.eraseDups = roots.eraseDups) (k : Nat) :
    (g'.walkEnds follow roots' k).eraseDups = (g.walkEnds follow roots k).eraseDups := by
  induction k with
  | zero =>
      exact hroots
  | succ k ih =>
      rw [walkEnds, walkEnds, ← nil_newTo, ← nil_newTo, newTo_flatMap_congr h.targets,
        newTo_flatMap_of_eraseDups_eq ih]

theorem discovered_eq (h : g.SameEdges g' follow) (hroots : roots'.eraseDups = roots.eraseDups)
    (k : Nat) : g'.discovered follow roots' k = g.discovered follow roots k := by
  induction k with
  | zero =>
      rfl
  | succ k ih =>
      rw [discovered_succ, discovered_succ, ih,
        newTo_eq_of_eraseDups_eq (h.eraseDups_walkEnds hroots k)]

theorem discover_eq (h : g.SameEdges g' follow) (hroots : roots'.eraseDups = roots.eraseDups)
    {found : List String} (hfound : g.discover follow roots = .ok found) :
    g'.discover follow roots' = .ok found := by
  obtain ⟨-, hmem, hcomplete⟩ := discover_ok_spec hfound
  obtain ⟨found', hfound'⟩ :=
    exists_discover_iff_complete.mpr ((h.complete_iff hroots).mpr hcomplete)
  obtain ⟨-, hmem', -⟩ := discover_ok_spec hfound'
  obtain ⟨k, hk⟩ := exists_subset_discovered fun id => (hmem id).mp
  have hk' : found' ⊆ g'.discovered follow roots' k := by
    intro id hid
    rw [hmem', h.reaches_eq hroots, ← hmem] at hid
    rw [h.discovered_eq hroots]
    exact hk hid
  rw [hfound', eq_discovered_of_discover hfound' hk', h.discovered_eq hroots,
    ← eq_discovered_of_discover hfound hk]

/-! ### Failing -/

theorem mem_emitted_iff (h : g.SameEdges g' follow) (hroots : roots'.eraseDups = roots.eraseDups)
    {found : List String} (hfound : g.discover follow roots = .ok found) (hid : id ∈ found) :
    id ∈ (g'.emitted follow roots' found).order ↔ id ∈ (g.emitted follow roots found).order := by
  have hreached := ((discover_ok_spec hfound).2.1 id).mp hid
  have hreached' := hreached
  rw [← h.reaches_eq hroots] at hreached'
  rw [← not_iff_not, not_mem_emitted_iff hfound hreached,
    not_mem_emitted_iff (h.discover_eq hroots hfound) hreached', h.reaches_eq hroots, h.leads_eq]

theorem firstMissing_iff (h : g.SameEdges g' follow) (hroots : roots'.eraseDups = roots.eraseDups) :
    g'.FirstMissing follow roots' id ↔ g.FirstMissing follow roots id := by
  simp only [FirstMissing, h.discovered_eq hroots, h.ids]

/-- Where one closure fails, the other one fails in the same way. -/
theorem closure_error (h : g.SameEdges g' follow)
    (hroots : (requirements'.map (·.node)).eraseDups = (requirements.map (·.node)).eraseDups)
    {failure : Failure} (hfailed : g.closure follow requirements = .error failure) :
    g'.closure follow requirements' = .error failure := by
  by_cases hcomplete : g.Complete follow (requirements.map (·.node))
  · obtain ⟨found, hfound⟩ := exists_discover_iff_complete.mpr hcomplete
    by_cases hcyclic : g.Cyclic follow (requirements.map (·.node))
    · have hleft : found.filter
            (· ∉ (g'.emitted follow (requirements'.map (·.node)) found).order)
          = found.filter (· ∉ (g.emitted follow (requirements.map (·.node)) found).order) := by
        refine List.filter_congr fun id hid => ?_
        rw [decide_eq_decide, h.mem_emitted_iff hroots hfound hid]
      rw [closure_of_discover_cyclic hfound hcyclic] at hfailed
      rw [closure_of_discover_cyclic (h.discover_eq hroots hfound)
        ((h.cyclic_iff hroots).mpr hcyclic), hleft, hfailed]
    · rw [closure_of_discover_acyclic hfound hcyclic] at hfailed
      cases hfailed
  · obtain ⟨id, hid⟩ := exists_firstMissing hcomplete
    rw [closure_of_firstMissing hid] at hfailed
    rw [closure_of_firstMissing ((h.firstMissing_iff hroots).mpr hid), ← hfailed,
      ← (reports_of_ids_eq h.ids).unknown]
    rfl

theorem closure_error_iff (h : g.SameEdges g' follow)
    (hroots : (requirements'.map (·.node)).eraseDups = (requirements.map (·.node)).eraseDups)
    (failure : Failure) :
    g'.closure follow requirements' = .error failure
      ↔ g.closure follow requirements = .error failure :=
  ⟨h.symm.closure_error hroots.symm, h.closure_error hroots⟩

/-! ### Succeeding -/

variable {nodes nodes' : List Node}

/-- Where one closure succeeds, the other one lists the same ids. -/
theorem exists_closure (h : g.SameEdges g' follow)
    (hroots : (requirements'.map (·.node)).eraseDups = (requirements.map (·.node)).eraseDups)
    (hnodes : g.closure follow requirements = .ok nodes) :
    ∃ nodes', g'.closure follow requirements' = .ok nodes'
      ∧ (nodes'.map (·.id)).Perm (nodes.map (·.id)) := by
  obtain ⟨hcomplete, hacyclic, horders⟩ := closure_ok_spec hnodes
  obtain ⟨nodes', hnodes', horders'⟩ := closure_of_acyclic
    ((h.complete_iff hroots).mpr hcomplete) (mt (h.cyclic_iff hroots).mp hacyclic)
  refine ⟨nodes', hnodes', (List.perm_ext_iff_of_nodup horders'.nodup horders.nodup).mpr ?_⟩
  intro id
  rw [horders'.mem_iff, horders.mem_iff, h.reaches_eq hroots]

theorem freeRoots_eq (h : g.SameEdges g' follow) (hroots : roots'.eraseDups = roots.eraseDups)
    (found : List String) :
    freeRoots (g'.targets follow) found roots' = freeRoots (g.targets follow) found roots := by
  rw [freeRoots, freeRoots, eraseDups_filter, eraseDups_filter, hroots]
  refine List.filter_congr fun id _ => ?_
  simp only [List.mem_flatMap, mem_iff_of_eraseDups_eq (h.targets _)]

/-- The order is the same exactly when the last edges in it stand in the same order. -/
theorem order_eq_iff (h : g.SameEdges g' follow)
    (hroots : (requirements'.map (·.node)).eraseDups = (requirements.map (·.node)).eraseDups)
    (hnodes : g.closure follow requirements = .ok nodes)
    (hnodes' : g'.closure follow requirements' = .ok nodes') :
    nodes'.map (·.id) = nodes.map (·.id)
      ↔ ((nodes.map (·.id)).flatMap (g'.targets follow)).dedup
        = ((nodes.map (·.id)).flatMap (g.targets follow)).dedup := by
  obtain ⟨hcomplete, hacyclic, horders⟩ := closure_ok_spec hnodes
  obtain ⟨-, hacyclic', horders'⟩ := closure_ok_spec hnodes'
  obtain ⟨found, hfound⟩ := exists_discover_iff_complete.mpr hcomplete
  have hfound' := h.discover_eq hroots hfound
  have horder := order_emitted hfound hacyclic
  have horder' := order_emitted hfound' hacyclic'
  rw [← map_id_of_closure hfound hnodes] at horder
  rw [← map_id_of_closure hfound' hnodes', h.freeRoots_eq hroots] at horder'
  constructor
  · intro hsame
    rw [hsame] at horder'
    exact List.append_cancel_left (horder'.symm.trans horder)
  · intro hsame
    rw [← hsame] at horder
    refine (horders'.eq_of_last hacyclic' horders.nodup (fun id => ?_) horder' horder).symm
    rw [horders.mem_iff, h.reaches_eq hroots]

end SameEdges

/-! ### Roots that come again -/

/-- A closure takes no notice of roots that come again. -/
theorem closure_eq_of_eraseDups_eq
    (hroots : (requirements'.map (·.node)).eraseDups = (requirements.map (·.node)).eraseDups) :
    g.closure follow requirements' = g.closure follow requirements := by
  have hedges := SameEdges.refl g follow
  cases hnodes : g.closure follow requirements with
  | error failure =>
      exact hedges.closure_error hroots hnodes
  | ok nodes =>
      obtain ⟨nodes', hnodes', -⟩ := hedges.exists_closure hroots hnodes
      have hsame := (hedges.order_eq_iff hroots hnodes hnodes').mpr rfl
      rw [hnodes', ← filterMap_node?_map_id (closure_ok_spec hnodes').2.2.declared, hsame,
        filterMap_node?_map_id (closure_ok_spec hnodes).2.2.declared]

end EnvLayers.Graph
