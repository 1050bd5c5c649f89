import EnvLayers.Proofs.Graph.ClosureOrder
import EnvLayers.Proofs.Outcome

/-
Module: EnvLayers.Proofs.Graph.Local
Purpose: Searching a graph from some roots, and ordering what is found, reads nothing but what the
  roots lead to. Two graphs in which the same of it is declared and requires the same are searched
  and ordered in lockstep, down to the failures; these may differ only in how the graphs report
  them.
Main exports: Graph.Reports, Graph.WalkedAlike, Graph.counterpart, WalkedAlike.closureIds_eq,
  WalkedAlike.closure_eq
-/

namespace EnvLayers.Graph

/-- `restate` turns the failures of a search of one graph into those of another, which may hold
other ids that are like a missing one. -/
structure Reports (g g' : Graph) (restate : Failure → Failure) : Prop where
  unknown : ∀ id, restate (g.unknown id) = g'.unknown id
  cyclicDependency : ∀ ids, restate (.cyclicDependency ids) = .cyclicDependency ids

/-- Graphs with the same ids in the same order report failures alike. -/
theorem reports_of_ids_eq {g g' : Graph} (h : g'.ids = g.ids) : g.Reports g' id where
  unknown missing := by
    rw [unknown, unknown, idsLike, idsLike, h]
    rfl
  cyclicDependency _ := rfl

/-- Of what the roots lead to, another graph declares the same and follows it to the same targets.
-/
def WalkedAlike (g g' : Graph) (follow : Requirement → Bool) (roots : List String) : Prop :=
  ∀ id, g.Reaches follow roots id →
    (id ∈ g'.ids ↔ id ∈ g.ids) ∧ g'.targets follow id = g.targets follow id

/-- What stands in a graph under the id of a package. Where nothing does, it is the package
itself. -/
def counterpart (g' : Graph) (n : Node) : Node := (g'.node? n.id).getD n

variable {g g' : Graph} {restate : Failure → Failure} {follow : Requirement → Bool}
  {roots : List String} {id : String}

@[simp] theorem id_counterpart (g' : Graph) (n : Node) : (g'.counterpart n).id = n.id := by
  unfold counterpart
  cases hn : g'.node? n.id with
  | none =>
      rfl
  | some n' =>
      exact id_of_node? hn

theorem counterpart_of_node? {n n' : Node} (hn : g.node? id = some n)
    (hn' : g'.node? id = some n') : g'.counterpart n = n' := by
  rw [counterpart, id_of_node? hn, hn', Option.getD_some]

/-- What two graphs have in common package by package, they have in common under each id. -/
theorem map_node?_eq {α : Type} {φ : Node → α} {key : α → String} (hkey : ∀ n, key (φ n) = n.id)
    (h : g'.nodes.map φ = g.nodes.map φ) (id : String) :
    (g'.node? id).map φ = (g.node? id).map φ := by
  have hfind : ∀ g : Graph, (g.node? id).map φ = (g.nodes.map φ).find? (key · == id) := by
    intro g
    rw [List.find?_map, node?]
    simp only [Function.comp_def, hkey]
  rw [hfind, hfind, h]

/-- An id that both graphs declare, or neither, stands for a package and its counterpart. -/
theorem node?_eq_map_counterpart (h : id ∈ g'.ids ↔ id ∈ g.ids) :
    g'.node? id = (g.node? id).map g'.counterpart := by
  cases hn : g.node? id with
  | none =>
      have hmissing := node?_eq_none_iff.mp hn
      exact node?_eq_none_iff.mpr (mt h.mp hmissing)
  | some n =>
      obtain ⟨n', hn'⟩ := mem_ids_iff.mp (h.mpr (mem_ids_of_node? hn))
      rw [hn', Option.map_some, counterpart_of_node? hn hn']

/-! ### Emitting -/

/-- An emission reads the targets of no id outside of the closure. -/
theorem Emission.run_congr {targets targets' : String → List String} {closure : List String}
    {s : Emission} (hnodup : closure.Nodup) (hsame : ∀ id ∈ closure, targets' id = targets id)
    (h : Invariant targets closure s []) : s.run targets' = s.run targets := by
  induction s using Emission.run.induct targets with
  | case1 s hqueue =>
      rw [run_of_nil hqueue, run_of_nil hqueue]
  | case2 s id rest hqueue ih =>
      have hadvance : Emission.advance targets' id rest s = Emission.advance targets id rest s := by
        rw [Emission.advance, hsame id (h.next hqueue).1, Emission.advance]
      rw [run_of_cons hqueue, run_of_cons hqueue, hadvance]
      exact ih (h.advance hnodup hqueue)

theorem startEmission_congr {targets targets' : String → List String} {closure : List String}
    (hsame : ∀ id ∈ closure, targets' id = targets id) (roots : List String) :
    startEmission targets' closure roots = startEmission targets closure roots := by
  have hdegree : inDegree targets' closure = inDegree targets closure := by
    funext id
    rw [inDegree, inDegree, List.flatMap_congr hsame]
  rw [startEmission, startEmission, hdegree]

/-- The ids of a closure are led to by its roots. -/
theorem reaches_of_mem_closureIds {ids : List String} (h : g.closureIds follow roots = .ok ids)
    (hid : id ∈ ids) : g.Reaches follow roots id := by
  obtain ⟨found, hfound, _⟩ := bind_ok_iff.mp h
  rw [closureIds_of_discover hfound] at h
  split at h
  · rw [← Except.ok.inj h] at hid
    exact ((discover_ok_spec hfound).2.1 id).mp (emitted_subset hfound hid)
  · cases h

namespace WalkedAlike

/-! ### Searching -/

theorem cons_of_mem {r : String} (h : g.WalkedAlike g' follow (r :: roots)) :
    g.WalkedAlike g' follow roots :=
  fun id hid => h id hid.cons

theorem append_targets {r : String} (h : g.WalkedAlike g' follow (r :: roots)) :
    g.WalkedAlike g' follow (roots ++ g.targets follow r) :=
  fun id hid => h id hid.of_append_targets

/-- Both searches take the same steps. -/
theorem discoverFrom_eq (hreports : g.Reports g' restate) {found pending : List String}
    (h : g.WalkedAlike g' follow pending) :
    g'.discoverFrom follow found pending
      = (g.discoverFrom follow found pending).mapError restate := by
  induction found, pending using discoverFrom.induct g follow with
  | case1 found =>
      rw [discoverFrom_nil, discoverFrom_nil]
      rfl
  | case2 found id pending hid ih =>
      rw [discoverFrom_cons_of_mem hid, discoverFrom_cons_of_mem hid, ih h.cons_of_mem]
  | case3 found id pending hid hnone =>
      have hmissing := node?_eq_none_iff.mp hnone
      obtain ⟨hdeclared, _⟩ := h id (.root List.mem_cons_self)
      rw [discoverFrom_cons_of_missing hid hmissing,
        discoverFrom_cons_of_missing hid (mt hdeclared.mp hmissing), ← hreports.unknown]
      rfl
  | case4 found id pending hid n hn ih =>
      have hfound := mem_ids_of_node? hn
      obtain ⟨hdeclared, htargets⟩ := h id (.root List.mem_cons_self)
      rw [← targets_of_node? hn] at ih
      rw [discoverFrom_cons_of_declared hid hfound,
        discoverFrom_cons_of_declared hid (hdeclared.mpr hfound), htargets, ih h.append_targets]

/-! ### Ordering -/

theorem emitted_eq {found : List String} (h : g.WalkedAlike g' follow roots)
    (hfound : g.discover follow roots = .ok found) :
    g'.emitted follow roots found = g.emitted follow roots found := by
  obtain ⟨hnodup, hreached, _⟩ := discover_ok_spec hfound
  have hsame : ∀ id ∈ found, g'.targets follow id = g.targets follow id :=
    fun id hid => (h id ((hreached id).mp hid)).2
  rw [emitted, emitted, startEmission_congr hsame]
  exact Emission.run_congr hnodup hsame (invariant_start_of_discover hfound)

/-- Both closures list the same ids in the same order, or fail alike. -/
theorem closureIds_eq (h : g.WalkedAlike g' follow roots) (hreports : g.Reports g' restate) :
    g'.closureIds follow roots = (g.closureIds follow roots).mapError restate := by
  have hsearch : g'.discover follow roots = (g.discover follow roots).mapError restate :=
    h.discoverFrom_eq hreports
  cases hfound : g.discover follow roots with
  | error failure =>
      rw [hfound] at hsearch
      rw [closureIds, closureIds, hsearch, hfound]
      rfl
  | ok found =>
      rw [hfound] at hsearch
      rw [closureIds_of_discover hfound, closureIds_of_discover hsearch, h.emitted_eq hfound]
      split
      · rfl
      · rw [Except.mapError, hreports.cyclicDependency]

/-- Both closures list the same packages, as far as the two graphs have the same, or fail alike. -/
theorem closure_eq {requirements requirements' : List Requirement}
    (h : g.WalkedAlike g' follow (requirements.map (·.node))) (hreports : g.Reports g' restate)
    (hroots : requirements'.map (·.node) = requirements.map (·.node)) :
    g'.closure follow requirements'
      = ((g.closure follow requirements).map (List.map g'.counterpart)).mapError restate := by
  rw [closure, closure, hroots, h.closureIds_eq hreports]
  cases hids : g.closureIds follow (requirements.map (·.node)) with
  | error failure =>
      rfl
  | ok ids =>
      have hnodes : ids.filterMap g'.node? = (ids.filterMap g.node?).map g'.counterpart := by
        rw [List.map_filterMap]
        refine List.filterMap_congr fun id hid => ?_
        exact node?_eq_map_counterpart (h id (reaches_of_mem_closureIds hids hid)).1
      simp [bind, Except.bind, pure, Except.pure, Except.map, Except.mapError, hnodes]

end WalkedAlike

end EnvLayers.Graph
