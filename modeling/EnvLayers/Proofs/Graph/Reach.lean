import EnvLayers.Graph.Closure
import Mathlib.Data.List.Nodup
import Mathlib.Logic.Relation

/-
Module: EnvLayers.Proofs.Graph.Reach
Purpose: What it means that an id is reachable, that a closure is complete or cyclic, and that an id
  is discovered before another, said on the declared requirements and not through the search that
  `Graph.discover` makes.
Main exports: Graph.Leads, Graph.Reaches, Graph.Complete, Graph.Cyclic, Graph.walkEnds,
  Graph.discovered, Graph.FirstMissing, cyclic_of_leads_root, reaches_iff_mem_walkEnds,
  exists_firstMissing
-/

namespace EnvLayers.Graph

/-- A followed requirement of a declared package leads from one id to another. -/
def Leads (g : Graph) (follow : Requirement → Bool) (u v : String) : Prop :=
  ∃ n r, g.node? u = some n ∧ r ∈ n.requirements ∧ follow r = true ∧ r.node = v

/-- An id that some roots lead to over followed requirements. It need not be declared. -/
inductive Reaches (g : Graph) (follow : Requirement → Bool) (roots : List String) :
    String → Prop where
  | root {id : String} : id ∈ roots → Reaches g follow roots id
  | step {u v : String} : Reaches g follow roots u → g.Leads follow u v → Reaches g follow roots v

/-- Everything that the roots lead to is declared. -/
def Complete (g : Graph) (follow : Requirement → Bool) (roots : List String) : Prop :=
  ∀ id, g.Reaches follow roots id → id ∈ g.ids

/-- The roots lead to an id that leads back to itself. -/
def Cyclic (g : Graph) (follow : Requirement → Bool) (roots : List String) : Prop :=
  ∃ id, g.Reaches follow roots id ∧ Relation.TransGen (g.Leads follow) id id

/-- The ids at the ends of the walks that take as many steps from a root, in the order in which the
roots and then the requirements are declared. -/
def walkEnds (g : Graph) (follow : Requirement → Bool) (roots : List String) : Nat → List String
  | 0 => roots
  | k + 1 => (walkEnds g follow roots k).flatMap (g.targets follow)

/-- The ids within fewer than `k` steps of the roots in breadth-first order: the ends of the shorter
walks first, each id where it is met first. -/
def discovered (g : Graph) (follow : Requirement → Bool) (roots : List String) (k : Nat) :
    List String :=
  ((List.range k).flatMap (g.walkEnds follow roots)).eraseDups

/-- The first id in breadth-first order that is not declared. -/
def FirstMissing (g : Graph) (follow : Requirement → Bool) (roots : List String) (id : String) :
    Prop :=
  ∃ k, (g.discovered follow roots k).find? (· ∉ g.ids) = some id

variable {g : Graph} {follow : Requirement → Bool} {roots : List String} {id : String}

/-! ### Declared ids -/

theorem id_of_node? {n : Node} (h : g.node? id = some n) : n.id = id := by
  simpa using List.find?_some h

/-- An id is declared exactly when there is a package under it. -/
theorem mem_ids_iff : id ∈ g.ids ↔ ∃ n, g.node? id = some n := by
  constructor
  · intro h
    rcases List.mem_map.mp h with ⟨n, hn, rfl⟩
    exact Option.isSome_iff_exists.mp (List.find?_isSome.mpr ⟨n, hn, by simp⟩)
  · rintro ⟨n, hn⟩
    exact mem_ids_of_node? hn

/-- A package stands under its own id. -/
theorem node?_of_mem {n : Node} (h : n ∈ g.nodes) : g.node? n.id = some n := by
  obtain ⟨m, hm⟩ := mem_ids_iff.mp (List.mem_map_of_mem h : n.id ∈ g.ids)
  have hfound := List.mem_of_find?_eq_some hm
  have hsame := List.inj_on_of_nodup_map g.ids_nodup hfound h (id_of_node? hm)
  rw [hm, hsame]

theorem node?_eq_none_iff : g.node? id = none ↔ id ∉ g.ids := by
  rw [mem_ids_iff, Option.eq_none_iff_forall_ne_some, not_exists]

theorem targets_of_node? {n : Node} (h : g.node? id = some n) :
    g.targets follow id = n.targets follow := by
  simp only [targets, h]

/-- The followed targets of an id are what its requirements lead to. -/
theorem mem_targets_iff {u v : String} : v ∈ g.targets follow u ↔ g.Leads follow u v := by
  unfold targets Leads
  cases hu : g.node? u with
  | none =>
      simp
  | some n =>
      simp [Node.targets, and_assoc]

/-- What is reached from ids that other roots lead to is reached from those roots. -/
theorem Reaches.of_roots {roots' : List String} (h : ∀ r ∈ roots, g.Reaches follow roots' r)
    (hid : g.Reaches follow roots id) : g.Reaches follow roots' id := by
  induction hid with
  | root hroot =>
      exact h _ hroot
  | step _ huv ih =>
      exact .step ih huv

theorem Reaches.cons {r : String} (h : g.Reaches follow roots id) :
    g.Reaches follow (r :: roots) id :=
  h.of_roots fun _ hx => .root (List.mem_cons_of_mem _ hx)

/-- Taking a root for its targets reaches nothing else. -/
theorem Reaches.of_append_targets {r : String}
    (h : g.Reaches follow (roots ++ g.targets follow r) id) : g.Reaches follow (r :: roots) id := by
  refine h.of_roots fun x hx => ?_
  rcases List.mem_append.mp hx with hx | hx
  · exact .root (List.mem_cons_of_mem _ hx)
  · exact .step (.root List.mem_cons_self) (mem_targets_iff.mp hx)

/-- What is reached from some roots is reached from one of them. -/
theorem Reaches.exists_root (h : g.Reaches follow roots id) :
    ∃ r ∈ roots, Relation.ReflTransGen (g.Leads follow) r id := by
  induction h with
  | root hroot =>
      exact ⟨_, hroot, .refl⟩
  | step _ huv ih =>
      rcases ih with ⟨r, hr, hpath⟩
      exact ⟨r, hr, hpath.tail huv⟩

theorem Reaches.trans {u v : String} (hu : g.Reaches follow roots u)
    (huv : Relation.ReflTransGen (g.Leads follow) u v) : g.Reaches follow roots v := by
  induction huv with
  | refl =>
      exact hu
  | tail _ hlast ih =>
      exact ih.step hlast

theorem reaches_of_reflTransGen {r : String} (hr : r ∈ roots)
    (h : Relation.ReflTransGen (g.Leads follow) r id) : g.Reaches follow roots id :=
  (Reaches.root hr).trans h

/-- An id that leads to a root and is led to from there makes the roots cyclic. -/
theorem cyclic_of_leads_root {r : String} (hr : r ∈ roots) (hlead : g.Leads follow id r)
    (hback : Relation.ReflTransGen (g.Leads follow) r id) : g.Cyclic follow roots :=
  ⟨id, reaches_of_reflTransGen hr hback, .head' hlead hback⟩

/-- Positions that grow along each requirement grow along chains of them. -/
theorem Reaches.lt_of_transGen {u v : String} (hu : g.Reaches follow roots u)
    (position : String → Nat)
    (hstep : ∀ u v, g.Reaches follow roots u → g.Leads follow u v → position u < position v)
    (huv : Relation.TransGen (g.Leads follow) u v) :
    position u < position v := by
  have hgrows : g.Reaches follow roots v ∧ position u < position v := by
    induction huv with
    | single huv =>
        exact ⟨hu.step huv, hstep _ _ hu huv⟩
    | tail _ hlast ih =>
        exact ⟨ih.1.step hlast, Nat.lt_trans ih.2 (hstep _ _ ih.1 hlast)⟩
  exact hgrows.2

/-! ### Walks -/

/-- The roots lead to exactly the ends of walks. -/
theorem reaches_iff_mem_walkEnds :
    g.Reaches follow roots id ↔ ∃ k, id ∈ g.walkEnds follow roots k := by
  constructor
  · intro h
    induction h with
    | root hid =>
        exact ⟨0, hid⟩
    | step _ huv ih =>
        rcases ih with ⟨k, hk⟩
        exact ⟨k + 1, List.mem_flatMap.mpr ⟨_, hk, mem_targets_iff.mpr huv⟩⟩
  · rintro ⟨k, hk⟩
    induction k generalizing id with
    | zero =>
        exact .root hk
    | succ k ih =>
        rcases List.mem_flatMap.mp hk with ⟨u, hu, huv⟩
        exact .step (ih hu) (mem_targets_iff.mp huv)

theorem mem_discovered {k : Nat} :
    id ∈ g.discovered follow roots k ↔ ∃ j < k, id ∈ g.walkEnds follow roots j := by
  simp [discovered, List.mem_eraseDups]

/-- Where something that the roots lead to is missing, there is a first such id. -/
theorem exists_firstMissing (h : ¬ g.Complete follow roots) :
    ∃ id, g.FirstMissing follow roots id := by
  simp only [Complete, Classical.not_forall] at h
  rcases h with ⟨id, hid, hmissing⟩
  rcases reaches_iff_mem_walkEnds.mp hid with ⟨k, hk⟩
  have hfound : ((g.discovered follow roots (k + 1)).find? (· ∉ g.ids)).isSome := by
    rw [List.find?_isSome]
    exact ⟨id, mem_discovered.mpr ⟨k, Nat.lt_succ_self k, hk⟩, by simpa using hmissing⟩
  rcases Option.isSome_iff_exists.mp hfound with ⟨first, hfirst⟩
  exact ⟨first, k + 1, hfirst⟩

/-- The first missing id is one that the roots lead to and that is not declared. -/
theorem FirstMissing.reaches_and_not_mem (h : g.FirstMissing follow roots id) :
    g.Reaches follow roots id ∧ id ∉ g.ids := by
  rcases h with ⟨k, hk⟩
  rcases mem_discovered.mp (List.mem_of_find?_eq_some hk) with ⟨j, _, hj⟩
  exact ⟨reaches_iff_mem_walkEnds.mpr ⟨j, hj⟩, by simpa using List.find?_some hk⟩

theorem FirstMissing.not_complete (h : g.FirstMissing follow roots id) :
    ¬ g.Complete follow roots := by
  intro hcomplete
  exact h.reaches_and_not_mem.2 (hcomplete id h.reaches_and_not_mem.1)

end EnvLayers.Graph
