import EnvLayers.Proofs.Graph.ClosureOrder
import Mathlib

/-
Module: EnvLayers.Proofs.Graph.CycleReport
Purpose: Which ids a closure names when it fails for a cycle: those that a cycle leads to, the ids
  on the cycle among them, in breadth-first order. Every other id that the roots lead to was
  emitted.
Main exports: Graph.OnCycle, Graph.CycleReport, closure_cycle_report
-/

namespace EnvLayers.Graph

/-- An id that the roots lead to and that leads back to itself. -/
def OnCycle (g : Graph) (follow : Requirement → Bool) (roots : List String) (id : String) : Prop :=
  g.Reaches follow roots id ∧ Relation.TransGen (g.Leads follow) id id

/-- What the report of a cycle lists: the ids on cycles and those that cycles lead to, each once and
in the breadth-first order of all that the roots lead to. Everything else of it was emitted. -/
structure CycleReport (g : Graph) (follow : Requirement → Bool) (roots ids : List String) :
    Prop where
  nonempty : ids ≠ []
  nodup : ids.Nodup
  mem_iff : ∀ id, id ∈ ids
    ↔ ∃ c, g.OnCycle follow roots c ∧ Relation.ReflTransGen (g.Leads follow) c id
  breadth_first : ∃ k, (∀ id, g.Reaches follow roots id → id ∈ g.discovered follow roots k)
    ∧ ids.Sublist (g.discovered follow roots k)
  emitted_iff : ∃ found, g.discover follow roots = .ok found
    ∧ ∀ id, id ∈ (g.emitted follow roots found).order ↔ g.Reaches follow roots id ∧ id ∉ ids

variable {g : Graph} {follow : Requirement → Bool} {roots ids : List String}
  {requirements : List Requirement}

theorem cycleReport_of_discover {found : List String} (hfound : g.discover follow roots = .ok found)
    (hcyclic : g.Cyclic follow roots) :
    g.CycleReport follow roots (found.filter (· ∉ (g.emitted follow roots found).order)) := by
  obtain ⟨hnodup, hmem, -⟩ := discover_ok_spec hfound
  have hleft : ∀ id, id ∈ found.filter (· ∉ (g.emitted follow roots found).order)
      ↔ ∃ c, g.OnCycle follow roots c ∧ Relation.ReflTransGen (g.Leads follow) c id := by
    intro id
    rw [List.mem_filter, decide_eq_true_eq, hmem]
    constructor
    · rintro ⟨hid, hleft⟩
      obtain ⟨c, hc, hcycle, hpath⟩ := (not_mem_emitted_iff hfound hid).mp hleft
      exact ⟨c, ⟨hc, hcycle⟩, hpath⟩
    · rintro ⟨c, ⟨hc, hcycle⟩, hpath⟩
      have hid := hc.trans hpath
      exact ⟨hid, (not_mem_emitted_iff hfound hid).mpr ⟨c, hc, hcycle, hpath⟩⟩
  constructor
  · obtain ⟨c, hc⟩ := hcyclic
    exact List.ne_nil_of_mem ((hleft c).mpr ⟨c, hc, .refl⟩)
  · exact hnodup.filter _
  · exact hleft
  · obtain ⟨k, hk⟩ := exists_subset_discovered fun id => (hmem id).mp
    refine ⟨k, fun id hid => hk ((hmem id).mpr hid), ?_⟩
    rw [← eq_discovered_of_discover hfound hk]
    exact List.filter_sublist
  · refine ⟨found, hfound, fun id => ?_⟩
    constructor
    · intro hid
      exact ⟨(hmem id).mp (emitted_subset hfound hid), by simp [hid]⟩
    · rintro ⟨hid, hreported⟩
      simpa [(hmem id).mpr hid] using hreported

/-- A closure that fails for a cycle names just what cycles lead to, in breadth-first order. -/
theorem closure_cycle_report
    (h : g.closure follow requirements = .error (.cyclicDependency ids)) :
    g.CycleReport follow (requirements.map (·.node)) ids := by
  obtain ⟨found, hfound, hcyclic, rfl⟩ := exists_discover_of_cyclicDependency h
  exact cycleReport_of_discover hfound hcyclic

/-- Two libraries that require each other, one of them twice, a library behind them and one
beside. -/
def looped : Graph where
  nodes := [
    { Node.ofName "app" with
      requirements := [⟨"x", .requires, true⟩, ⟨"beside", .requires, true⟩] },
    { Node.ofName "x" with requirements := [⟨"y", .requires, true⟩, ⟨"y", .requires, true⟩] },
    { Node.ofName "y" with
      requirements := [⟨"x", .requires, true⟩, ⟨"behind", .requires, true⟩] },
    Node.ofName "beside", Node.ofName "behind"]
  ids_nodup := by decide

/-- The library behind the cycle is reported with it, and the one beside it is not. -/
theorem closure_cycle_report_looped :
    looped.closure (fun _ => true) [⟨"app", .requires, true⟩, ⟨"y", .requires, true⟩]
        = .error (.cyclicDependency ["y", "x", "behind"])
      ∧ looped.CycleReport (fun _ => true) ["app", "y"] ["y", "x", "behind"] := by
  have hfailed : looped.closure (fun _ => true) [⟨"app", .requires, true⟩, ⟨"y", .requires, true⟩]
      = .error (.cyclicDependency ["y", "x", "behind"]) := by
    -- Unfolds by equations. Those of core functions stand at many places of Mathlib, which is
    -- imported whole for them.
    cbv
  exact ⟨hfailed, closure_cycle_report hfailed⟩

end EnvLayers.Graph
