import EnvLayers.Proofs.Graph.Discovery
import EnvLayers.Proofs.Graph.Emission

/-
Module: EnvLayers.Proofs.Graph.ClosureOrder
Purpose: What `Graph.closure` answers for every graph, filter and list of roots: the packages that
  the roots lead to, each before everything that it requires, exactly when all of them are declared
  and none leads back to itself; otherwise the first id that is missing, or that there is a cycle.
Main exports: Graph.Orders, Graph.emitted, not_mem_emitted_iff, closure_of_discover_cyclic,
  closure_of_discover_acyclic, closure_of_firstMissing, closure_of_acyclic, closure_of_cyclic,
  closure_ok_spec, closure_exact
-/

namespace EnvLayers.Graph

variable {g : Graph} {follow : Requirement → Bool} {roots : List String}

/-- The packages that the roots lead to, each once and before everything that it requires. -/
structure Orders (g : Graph) (follow : Requirement → Bool) (roots : List String)
    (nodes : List Node) : Prop where
  declared : ∀ n ∈ nodes, g.node? n.id = some n
  nodup : (nodes.map (·.id)).Nodup
  mem_iff : ∀ id, id ∈ nodes.map (·.id) ↔ g.Reaches follow roots id
  before : ∀ u v, g.Reaches follow roots u → g.Leads follow u v →
    (nodes.map (·.id)).idxOf u < (nodes.map (·.id)).idxOf v

/-! ### The packages of ids -/

theorem map_id_filterMap_node? {ids : List String} (h : ∀ id ∈ ids, id ∈ g.ids) :
    (ids.filterMap g.node?).map (·.id) = ids := by
  induction ids with
  | nil =>
      rfl
  | cons id ids ih =>
      rcases mem_ids_iff.mp (h id List.mem_cons_self) with ⟨n, hn⟩
      rw [List.filterMap_cons_some hn, List.map_cons, id_of_node? hn,
        ih fun x hx => h x (List.mem_cons_of_mem _ hx)]

/-- The packages of the ids of declared packages are those packages. -/
theorem filterMap_node?_map_id {nodes : List Node} (h : ∀ n ∈ nodes, g.node? n.id = some n) :
    (nodes.map (·.id)).filterMap g.node? = nodes := by
  induction nodes with
  | nil =>
      rfl
  | cons n nodes ih =>
      rw [List.map_cons, List.filterMap_cons_some (h n List.mem_cons_self),
        ih fun m hm => h m (List.mem_cons_of_mem _ hm)]

theorem node?_of_mem_filterMap {ids : List String} {n : Node} (h : n ∈ ids.filterMap g.node?) :
    g.node? n.id = some n := by
  rcases List.mem_filterMap.mp h with ⟨id, _, hn⟩
  rw [id_of_node? hn, hn]

/-! ### The emission of a closure -/

/-- The emission of what a search has found, when it has come to its end. -/
def emitted (g : Graph) (follow : Requirement → Bool) (roots found : List String) : Emission :=
  (startEmission (g.targets follow) found roots).run (g.targets follow)

/-- The edges between declared ids, as the emission reads them, are the requirements. -/
theorem mem_targets_eq_leads (g : Graph) (follow : Requirement → Bool) :
    (fun u v => v ∈ g.targets follow u) = g.Leads follow := by
  funext u v
  exact propext mem_targets_iff

theorem transGen_targets_iff {u v : String} :
    Relation.TransGen (fun u v => v ∈ g.targets follow u) u v
      ↔ Relation.TransGen (g.Leads follow) u v := by
  rw [mem_targets_eq_leads]

/-- The emission of a closure that was found starts with its invariant: an id that no other one
leads to is a root. -/
theorem invariant_start_of_discover {found : List String}
    (h : g.discover follow roots = .ok found) :
    Emission.Invariant (g.targets follow) found (startEmission (g.targets follow) found roots)
      [] := by
  rcases discover_ok_spec h with ⟨_, hmem, _⟩
  have hroots : roots ⊆ found := fun id hid => (hmem id).mpr (.root hid)
  refine invariant_startEmission hroots fun id hid hzero => ?_
  cases (hmem id).mp hid with
  | root hroot =>
      exact hroot
  | step hu huv =>
      have hpos : 0 < inDegree (g.targets follow) found id :=
        List.count_pos_iff.mpr
          (List.mem_flatMap.mpr ⟨_, (hmem _).mpr hu, mem_targets_iff.mpr huv⟩)
      omega

/-- It ends with its invariant and with nothing ready. -/
theorem invariant_emitted {found : List String} (h : g.discover follow roots = .ok found) :
    Emission.Invariant (g.targets follow) found (g.emitted follow roots found) []
      ∧ (g.emitted follow roots found).queue = [] :=
  (invariant_start_of_discover h).run (discover_ok_spec h).1

theorem emitted_subset {found : List String} (h : g.discover follow roots = .ok found) :
    (g.emitted follow roots found).order ⊆ found :=
  (invariant_emitted h).1.order_subset

/-- The edges of what a search has found lead to what it has found. -/
theorem targets_subset_of_discover {found : List String} {u : String}
    (h : g.discover follow roots = .ok found) (hu : u ∈ found) : g.targets follow u ⊆ found := by
  obtain ⟨-, hmem, -⟩ := discover_ok_spec h
  exact fun v hv => (hmem v).mpr (((hmem u).mp hu).step (mem_targets_iff.mp hv))

/-- What leads to an id that is emitted stands before it. -/
theorem idxOf_lt_of_transGen {found : List String} {u v : String}
    (h : g.discover follow roots = .ok found) (hv : v ∈ (g.emitted follow roots found).order)
    (hu : g.Reaches follow roots u) (huv : Relation.TransGen (g.Leads follow) u v) :
    (g.emitted follow roots found).order.idxOf u
      < (g.emitted follow roots found).order.idxOf v := by
  have hstep : ∀ u v, g.Reaches follow roots u → v ∈ (g.emitted follow roots found).order →
      g.Leads follow u v → (g.emitted follow roots found).order.idxOf u
        < (g.emitted follow roots found).order.idxOf v := fun u v hu hv huv =>
    (invariant_emitted h).1.idxOf_lt (((discover_ok_spec h).2.1 u).mpr hu) hv
      (mem_targets_iff.mpr huv)
  induction huv with
  | single huv =>
      exact hstep _ _ hu hv huv
  | tail huw hwv ih =>
      have hlast := hstep _ _ (hu.trans huw.to_reflTransGen) hv hwv
      have hw := List.idxOf_lt_length_iff.mp
        (Nat.lt_trans hlast (List.idxOf_lt_length_iff.mpr hv))
      exact Nat.lt_trans (ih hw) hlast

/-- An id is left over exactly when a cycle leads to it. -/
theorem not_mem_emitted_iff {found : List String} {id : String}
    (h : g.discover follow roots = .ok found) (hid : g.Reaches follow roots id) :
    id ∉ (g.emitted follow roots found).order ↔ ∃ c, g.Reaches follow roots c
      ∧ Relation.TransGen (g.Leads follow) c c ∧ Relation.ReflTransGen (g.Leads follow) c id := by
  rcases invariant_emitted h with ⟨hinv, hqueue⟩
  obtain ⟨-, hmem, -⟩ := discover_ok_spec h
  constructor
  · intro hleft
    rcases hinv.exists_cycle hqueue ((hmem id).mpr hid) hleft with ⟨c, hc, hcycle, hpath⟩
    rw [mem_targets_eq_leads] at hcycle hpath
    exact ⟨c, (hmem c).mp hc, hcycle, hpath⟩
  · rintro ⟨c, hc, hcycle, hpath⟩ hlisted
    have hfirst : c ∈ (g.emitted follow roots found).order := by
      rcases Relation.reflTransGen_iff_eq_or_transGen.mp hpath with rfl | hpath
      · exact hlisted
      · have hless := idxOf_lt_of_transGen h hlisted hc hpath
        exact List.idxOf_lt_length_iff.mp
          (Nat.lt_trans hless (List.idxOf_lt_length_iff.mpr hlisted))
    exact Nat.lt_irrefl _ (idxOf_lt_of_transGen h hfirst hc hcycle)

/-- An id of the closure is emitted unless there is a cycle. -/
theorem mem_emitted_of_acyclic {found : List String} {id : String}
    (h : g.discover follow roots = .ok found) (hacyclic : ¬ g.Cyclic follow roots)
    (hid : id ∈ found) : id ∈ (g.emitted follow roots found).order := by
  refine Classical.byContradiction fun hleft => hacyclic ?_
  obtain ⟨c, hc, hcycle, -⟩ :=
    (not_mem_emitted_iff h (((discover_ok_spec h).2.1 id).mp hid)).mp hleft
  exact ⟨c, hc, hcycle⟩

/-- The emission is complete exactly when there is no cycle. -/
theorem length_emitted_iff {found : List String} (h : g.discover follow roots = .ok found) :
    (g.emitted follow roots found).order.length = found.length ↔ ¬ g.Cyclic follow roots := by
  rcases invariant_emitted h with ⟨hinv, hqueue⟩
  have hnodup := (List.nodup_append.mp hinv.nodup).1
  have hsub := emitted_subset h
  constructor
  · rintro hlength ⟨id, hid, hcycle⟩
    have hperm := (List.subperm_of_subset hnodup hsub).perm_of_length_le (by omega)
    have hlisted := hperm.mem_iff.mpr (((discover_ok_spec h).2.1 id).mpr hid)
    exact (not_mem_emitted_iff h hid).mpr ⟨id, hid, hcycle, .refl⟩ hlisted
  · intro hacyclic
    have hall : found ⊆ (g.emitted follow roots found).order := fun id hid =>
      mem_emitted_of_acyclic h hacyclic hid
    have hle := hnodup.length_le_of_subset hsub
    have hge := (discover_ok_spec h).1.length_le_of_subset hall
    omega

theorem closureIds_of_discover {found : List String} (h : g.discover follow roots = .ok found) :
    g.closureIds follow roots
      = if (g.emitted follow roots found).order.length = found.length then
          .ok (g.emitted follow roots found).order
        else .error (.cyclicDependency
          (found.filter (· ∉ (g.emitted follow roots found).order))) := by
  rw [closureIds, h]
  rfl

/-! ### The three answers -/

variable {requirements : List Requirement}

theorem closure_of_firstMissing {id : String}
    (h : g.FirstMissing follow (requirements.map (·.node)) id) :
    g.closure follow requirements = .error (g.unknown id) := by
  rw [closure, closureIds, discover_firstMissing h]
  rfl

theorem closure_of_discover_cyclic {found : List String}
    (h : g.discover follow (requirements.map (·.node)) = .ok found)
    (hcyclic : g.Cyclic follow (requirements.map (·.node))) :
    g.closure follow requirements = .error (.cyclicDependency
      (found.filter (· ∉ (g.emitted follow (requirements.map (·.node)) found).order))) := by
  rw [closure, closureIds_of_discover h,
    if_neg fun hlength => (length_emitted_iff h).mp hlength hcyclic]
  rfl

theorem closure_of_discover_acyclic {found : List String}
    (h : g.discover follow (requirements.map (·.node)) = .ok found)
    (hacyclic : ¬ g.Cyclic follow (requirements.map (·.node))) :
    g.closure follow requirements
      = .ok ((g.emitted follow (requirements.map (·.node)) found).order.filterMap g.node?) := by
  rw [closure, closureIds_of_discover h, if_pos ((length_emitted_iff h).mpr hacyclic)]
  rfl

/-- A closure reports a cycle only when there is one, and then the ids that are left over. -/
theorem exists_discover_of_cyclicDependency {ids : List String}
    (h : g.closure follow requirements = .error (.cyclicDependency ids)) :
    ∃ found, g.discover follow (requirements.map (·.node)) = .ok found
      ∧ g.Cyclic follow (requirements.map (·.node))
      ∧ ids = found.filter (· ∉ (g.emitted follow (requirements.map (·.node)) found).order) := by
  by_cases hcomplete : g.Complete follow (requirements.map (·.node))
  · rcases exists_discover_iff_complete.mpr hcomplete with ⟨found, hfound⟩
    by_cases hcyclic : g.Cyclic follow (requirements.map (·.node))
    · rw [closure_of_discover_cyclic hfound hcyclic] at h
      injection h with h
      injection h with h
      exact ⟨found, hfound, hcyclic, h.symm⟩
    · rw [closure_of_discover_acyclic hfound hcyclic] at h
      cases h
  · rcases exists_firstMissing hcomplete with ⟨id, hid⟩
    rw [closure_of_firstMissing hid] at h
    cases h

theorem closure_of_cyclic (hcomplete : g.Complete follow (requirements.map (·.node)))
    (hcyclic : g.Cyclic follow (requirements.map (·.node))) :
    ∃ ids, g.closure follow requirements = .error (.cyclicDependency ids) := by
  rcases exists_discover_iff_complete.mpr hcomplete with ⟨found, hfound⟩
  exact ⟨_, closure_of_discover_cyclic hfound hcyclic⟩

theorem closure_of_acyclic (hcomplete : g.Complete follow (requirements.map (·.node)))
    (hacyclic : ¬ g.Cyclic follow (requirements.map (·.node))) :
    ∃ nodes, g.closure follow requirements = .ok nodes
      ∧ g.Orders follow (requirements.map (·.node)) nodes := by
  rcases exists_discover_iff_complete.mpr hcomplete with ⟨found, hfound⟩
  rcases discover_ok_spec hfound with ⟨_, hmem, _⟩
  rcases invariant_emitted hfound with ⟨hinv, _⟩
  have hall : ∀ id, id ∈ (g.emitted follow (requirements.map (·.node)) found).order
      ↔ g.Reaches follow (requirements.map (·.node)) id := by
    intro id
    rw [← hmem id]
    exact ⟨fun hid => emitted_subset hfound hid, mem_emitted_of_acyclic hfound hacyclic⟩
  have hids := map_id_filterMap_node? fun id hid => hcomplete id ((hall id).mp hid)
  refine ⟨_, closure_of_discover_acyclic hfound hacyclic,
    fun n hn => node?_of_mem_filterMap hn, ?_, ?_, ?_⟩
  · rw [hids]
    exact (List.nodup_append.mp hinv.nodup).1
  · rw [hids]
    exact hall
  · intro u v hu huv
    rw [hids]
    exact idxOf_lt_of_transGen hfound ((hall v).mpr (hu.step huv)) hu (.single huv)

/-- A closure that succeeds lists what the roots lead to, all of it declared and none of it leading
back to itself. -/
theorem closure_ok_spec {nodes : List Node} (h : g.closure follow requirements = .ok nodes) :
    g.Complete follow (requirements.map (·.node)) ∧ ¬ g.Cyclic follow (requirements.map (·.node))
      ∧ g.Orders follow (requirements.map (·.node)) nodes := by
  by_cases hcomplete : g.Complete follow (requirements.map (·.node))
  · by_cases hcyclic : g.Cyclic follow (requirements.map (·.node))
    · rcases closure_of_cyclic hcomplete hcyclic with ⟨ids, hfailed⟩
      simp [hfailed] at h
    · rcases closure_of_acyclic hcomplete hcyclic with ⟨listed, hfound, horders⟩
      rw [hfound, Except.ok.injEq] at h
      exact ⟨hcomplete, hcyclic, h ▸ horders⟩
  · rcases exists_firstMissing hcomplete with ⟨id, hid⟩
    simp [closure_of_firstMissing hid] at h

theorem unknown_injective {id id' : String} (h : g.unknown id = g.unknown id') : id = id' := by
  injection h

theorem unknown_ne_cyclicDependency (id : String) (ids : List String) :
    g.unknown id ≠ .cyclicDependency ids := by
  rintro ⟨⟩

/-- The closure of some requirements is exact. It succeeds if and only if everything that they lead
to is declared and nothing of it leads back to itself, and then lists just that, each package before
what it requires. A missing id is reported, the first one in breadth-first order and whether or not
there is a cycle; otherwise a cycle is. -/
theorem closure_exact (g : Graph) (follow : Requirement → Bool) (requirements : List Requirement) :
    ((∃ nodes, g.closure follow requirements = .ok nodes)
        ↔ g.Complete follow (requirements.map (·.node))
          ∧ ¬ g.Cyclic follow (requirements.map (·.node)))
      ∧ (∀ nodes, g.closure follow requirements = .ok nodes →
          g.Orders follow (requirements.map (·.node)) nodes)
      ∧ (∀ id, g.closure follow requirements = .error (g.unknown id)
        ↔ g.FirstMissing follow (requirements.map (·.node)) id)
      ∧ (¬ g.Complete follow (requirements.map (·.node))
        ↔ ∃ id, g.FirstMissing follow (requirements.map (·.node)) id)
      ∧ ((∃ ids, g.closure follow requirements = .error (.cyclicDependency ids))
        ↔ g.Complete follow (requirements.map (·.node))
          ∧ g.Cyclic follow (requirements.map (·.node))) := by
  have hmissing : ¬ g.Complete follow (requirements.map (·.node))
      ↔ ∃ id, g.FirstMissing follow (requirements.map (·.node)) id :=
    ⟨exists_firstMissing, fun ⟨_, hid⟩ => hid.not_complete⟩
  by_cases hcomplete : g.Complete follow (requirements.map (·.node))
  · have hnone : ∀ id, ¬ g.FirstMissing follow (requirements.map (·.node)) id :=
      fun id hid => hid.not_complete hcomplete
    by_cases hcyclic : g.Cyclic follow (requirements.map (·.node))
    · rcases closure_of_cyclic hcomplete hcyclic with ⟨ids, h⟩
      refine ⟨?_, ?_, fun id => ?_, hmissing, ?_⟩
      · simp [h, hcyclic]
      · simp [h]
      · simp [h, hnone id, (unknown_ne_cyclicDependency id ids).symm]
      · simp [h, hcomplete, hcyclic]
    · rcases closure_of_acyclic hcomplete hcyclic with ⟨nodes, h, horders⟩
      refine ⟨?_, ?_, fun id => ?_, hmissing, ?_⟩
      · simp [h, hcomplete, hcyclic]
      · simp [h, horders]
      · simp [h, hnone id]
      · simp [h, hcyclic]
  · rcases hmissing.mp hcomplete with ⟨first, hfirst⟩
    have h := closure_of_firstMissing hfirst
    refine ⟨?_, ?_, fun id => ⟨fun hid => ?_, closure_of_firstMissing⟩, hmissing, ?_⟩
    · simp [h, hcomplete]
    · simp [h]
    · rw [h, Except.error.injEq] at hid
      rwa [← unknown_injective hid]
    · simp [h, hcomplete, unknown_ne_cyclicDependency]

end EnvLayers.Graph
