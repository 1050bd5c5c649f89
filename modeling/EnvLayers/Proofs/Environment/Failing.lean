import EnvLayers.Graph.Load
import EnvLayers.Proofs.Environment.View
import EnvLayers.Proofs.Graph.Validate

/-
Module: EnvLayers.Proofs.Environment.Failing
Purpose: When a consumer of a checked graph has no environment: it is not declared itself, or a
  closure of the scope holds a cycle. A graph that is read from a text or a file is a checked one,
  and profiles have no part in it.
Main exports: Graph.Checked, Graph.HasCycle, Checked.valid, Valid.resolve_cases,
  Graph.resolve_fails_iff
-/

namespace EnvLayers.Graph

/-- A graph as it comes into use: it has passed the check, or it was read from a text or a file. -/
def Checked (g : Graph) : Prop :=
  g.validate = .ok () ∨ (∃ text, ofYaml text = .ok g) ∨ ∃ files path, load files path = .ok g

/-- A closure of the scope holds a cycle: the one of the host packages, which follows visible
requirements for the host, or for a build the one of the tools, which follows all requirements but
those of tests. -/
def HasCycle (g : Graph) (consumer : String) (scope : Scope) : Prop :=
  g.Cyclic isHostEdge (g.hostRoots consumer scope)
    ∨ scope = .build ∧ g.Cyclic isToolEdge (g.targets (·.kind == .buildRequires) consumer)

variable {g : Graph} {consumer id : String} {scope : Scope} {c : Node}

/-! ### Graphs that are read -/

theorem nodes_rebase (g : Graph) (path : String) :
    (g.rebase path).nodes = match Path.parent? path with
      | some base => g.nodes.map (Node.rebase base)
      | none => g.nodes := rfl

theorem mem_nodes_rebase {path : String} {n : Node} (h : n ∈ (g.rebase path).nodes) :
    ∃ m ∈ g.nodes, n = { m with folder := n.folder } := by
  rw [nodes_rebase] at h
  split at h
  · obtain ⟨m, hm, rfl⟩ := List.mem_map.mp h
    exact ⟨m, hm, rfl⟩
  · exact ⟨n, h, rfl⟩

theorem ids_rebase (g : Graph) (path : String) : (g.rebase path).ids = g.ids := by
  rw [ids, nodes_rebase, ids]
  split
  · rw [List.map_map]
    rfl
  · rfl

/-- Folders have no part in the check. -/
theorem Valid.rebase (h : g.Valid) (path : String) : (g.rebase path).Valid where
  root id hid := by
    rw [ids_rebase]
    exact h.root id hid
  requirements n hn := by
    obtain ⟨m, hm, heq⟩ := mem_nodes_rebase hn
    rw [heq, ids_rebase]
    exact h.requirements m hm
  names n hn := by
    obtain ⟨m, hm, heq⟩ := mem_nodes_rebase hn
    rw [heq]
    exact h.names m hm

theorem valid_of_ofYaml {text : String} (h : ofYaml text = .ok g) : g.Valid := by
  unfold ofYaml at h
  split at h
  · obtain ⟨built, _, hrest⟩ := bind_ok_iff.mp h
    obtain ⟨_, hvalid, hbuilt⟩ := bind_ok_iff.mp hrest
    cases hbuilt
    exact validate_ok_iff.mp hvalid
  · cases h

theorem valid_of_load {files : FileView} {path : String} (h : load files path = .ok g) :
    g.Valid := by
  unfold load at h
  split at h
  · cases h
  · obtain ⟨read, hread, hrebased⟩ := bind_ok_iff.mp h
    cases hrebased
    exact (valid_of_ofYaml hread).rebase path

theorem Checked.valid (h : g.Checked) : g.Valid := by
  rcases h with hvalid | ⟨_, hread⟩ | ⟨_, _, hloaded⟩
  · exact validate_ok_iff.mp hvalid
  · exact valid_of_ofYaml hread
  · exact valid_of_load hloaded

/-! ### The closures of a checked graph -/

/-- What a requirement of a checked graph leads to is declared. -/
theorem Valid.mem_ids_of_leads {follow : Requirement → Bool} {u v : String} (h : g.Valid)
    (huv : g.Leads follow u v) : v ∈ g.ids := by
  obtain ⟨n, r, hn, hr, _, rfl⟩ := huv
  exact h.requirements n (List.mem_of_find?_eq_some hn) r hr

theorem Valid.complete {follow : Requirement → Bool} {roots : List String} (h : g.Valid)
    (hroots : ∀ id ∈ roots, id ∈ g.ids) : g.Complete follow roots := by
  intro id hid
  cases hid with
  | root hroot =>
      exact hroots id hroot
  | step _ huv =>
      exact h.mem_ids_of_leads huv

theorem Valid.mem_ids_of_mem_targets {follow : Requirement → Bool} (h : g.Valid)
    (hid : id ∈ g.targets follow consumer) : id ∈ g.ids :=
  h.mem_ids_of_leads (mem_targets_iff.mp hid)

theorem Valid.mem_ids_of_mem_hostRoots (h : g.Valid) (hid : id ∈ g.hostRoots consumer scope) :
    id ∈ g.ids := by
  cases scope with
  | build =>
      exact h.mem_ids_of_mem_targets hid
  | run =>
      exact (List.mem_append.mp hid).elim h.mem_ids_of_mem_targets h.mem_ids_of_mem_targets

/-- A closure in which nothing is missing fails for a cycle, or not at all. -/
theorem closure_cases {follow : Requirement → Bool} {requirements : List Requirement}
    (hcomplete : g.Complete follow (requirements.map (·.node))) :
    (g.Cyclic follow (requirements.map (·.node))
        ∧ ∃ ids, g.closure follow requirements = .error (.cyclicDependency ids))
      ∨ ¬ g.Cyclic follow (requirements.map (·.node))
        ∧ ∃ nodes, g.closure follow requirements = .ok nodes := by
  by_cases hcyclic : g.Cyclic follow (requirements.map (·.node))
  · exact .inl ⟨hcyclic, closure_of_cyclic hcomplete hcyclic⟩
  · obtain ⟨nodes, hnodes, _⟩ := closure_of_acyclic hcomplete hcyclic
    exact .inr ⟨hcyclic, nodes, hnodes⟩

theorem Valid.tools_cases (h : g.Valid) (hc : g.node? consumer = some c) :
    (g.Cyclic isToolEdge (g.targets (·.kind == .buildRequires) consumer)
        ∧ ∃ ids, g.tools c = .error (.cyclicDependency ids))
      ∨ ¬ g.Cyclic isToolEdge (g.targets (·.kind == .buildRequires) consumer)
        ∧ ∃ nodes, g.tools c = .ok nodes := by
  rw [← map_node_requirementsOfKind hc]
  refine closure_cases (h.complete fun id hid => ?_)
  rw [map_node_requirementsOfKind hc] at hid
  exact h.mem_ids_of_mem_targets hid

theorem Valid.hostClosure_cases (h : g.Valid) (hc : g.node? consumer = some c) (scope : Scope) :
    (g.Cyclic isHostEdge (g.hostRoots consumer scope)
        ∧ ∃ ids, g.hostClosure c scope = .error (.cyclicDependency ids))
      ∨ ¬ g.Cyclic isHostEdge (g.hostRoots consumer scope)
        ∧ ∃ nodes, g.hostClosure c scope = .ok nodes := by
  obtain ⟨requirements, hclosure, hroots⟩ := exists_hostClosure_eq hc scope
  rw [hclosure, ← hroots]
  refine closure_cases (h.complete fun id hid => ?_)
  exact h.mem_ids_of_mem_hostRoots (hroots ▸ hid)

/-! ### Resolving -/

/-- The operations of a declared consumer can be listed unless a closure of the scope holds a cycle.
-/
theorem Valid.sequence_cases (h : g.Valid) (hc : g.node? consumer = some c) (scope : Scope)
    (profiles : List Profile) :
    (g.HasCycle consumer scope
        ∧ ∃ ids, g.sequence c profiles scope = .error (.cyclicDependency ids))
      ∨ ¬ g.HasCycle consumer scope ∧ ∃ ops, g.sequence c profiles scope = .ok ops := by
  have hhosts := h.hostClosure_cases hc scope
  cases scope with
  | run =>
      rcases hhosts with ⟨hcyclic, ids, hfailed⟩ | ⟨hacyclic, nodes, hnodes⟩
      · refine .inl ⟨.inl hcyclic, ids, ?_⟩
        rw [hostClosure] at hfailed
        rw [sequence, hfailed]
        rfl
      · refine .inr ⟨?_, ?_⟩
        · rintro (hcyclic | ⟨hbuild, _⟩)
          · exact hacyclic hcyclic
          · cases hbuild
        · rw [hostClosure] at hnodes
          rw [sequence, hnodes]
          exact ⟨_, rfl⟩
  | build =>
      rcases h.tools_cases hc with ⟨hcyclic, ids, hfailed⟩ | ⟨htoolsAcyclic, tools, htools⟩
      · refine .inl ⟨.inr ⟨rfl, hcyclic⟩, ids, ?_⟩
        rw [sequence, hfailed]
        rfl
      · rcases hhosts with ⟨hcyclic, ids, hfailed⟩ | ⟨hacyclic, hosts, hlisted⟩
        · refine .inl ⟨.inl hcyclic, ids, ?_⟩
          rw [hostClosure] at hfailed
          rw [sequence, htools, hfailed]
          rfl
        · refine .inr ⟨?_, ?_⟩
          · rintro (hcyclic | ⟨_, hcyclic⟩)
            · exact hacyclic hcyclic
            · exact htoolsAcyclic hcyclic
          · rw [hostClosure] at hlisted
            rw [sequence, htools, hlisted]
            exact ⟨_, rfl⟩

/-- Of the three answers to resolving a consumer of a checked graph, the one that is given. -/
theorem Valid.resolve_cases (h : g.Valid) (consumer : String) (scope : Scope)
    (profiles : List Profile) :
    (consumer ∉ g.ids ∧ g.resolve consumer scope profiles = .error (g.unknown consumer))
      ∨ (consumer ∈ g.ids ∧ g.HasCycle consumer scope
        ∧ ∃ ids, g.resolve consumer scope profiles = .error (.cyclicDependency ids))
      ∨ consumer ∈ g.ids ∧ ¬ g.HasCycle consumer scope
        ∧ ∃ env, g.resolve consumer scope profiles = .ok env := by
  rw [resolve_eq_sequence, node]
  cases hc : g.node? consumer with
  | none =>
      exact .inl ⟨node?_eq_none_iff.mp hc, rfl⟩
  | some c =>
      have hdeclared := mem_ids_of_node? hc
      rcases h.sequence_cases hc scope profiles with ⟨hcyclic, ids, hfailed⟩ | ⟨hacyclic, ops, hops⟩
      · refine .inr (.inl ⟨hdeclared, hcyclic, ids, ?_⟩)
        simp only [bind, Except.bind, hfailed]
      · refine .inr (.inr ⟨hdeclared, hacyclic, ?_⟩)
        simp only [bind, Except.bind, hops]
        exact ⟨_, rfl⟩

/-- Resolving a consumer of a checked graph, with any profiles, fails for an unknown id exactly when
the consumer itself is not declared, and then names it; it fails for a cycle exactly when a closure
of the scope holds one; and otherwise it succeeds. -/
theorem resolve_fails_iff {g : Graph} (h : g.Checked) (consumer : String) (scope : Scope)
    (profiles : List Profile) :
    ((∃ id similar, g.resolve consumer scope profiles = .error (.unknownNode id similar))
        ↔ consumer ∉ g.ids)
      ∧ (consumer ∉ g.ids → g.resolve consumer scope profiles = .error (g.unknown consumer))
      ∧ ((∃ ids, g.resolve consumer scope profiles = .error (.cyclicDependency ids))
        ↔ consumer ∈ g.ids ∧ g.HasCycle consumer scope)
      ∧ ((∃ env, g.resolve consumer scope profiles = .ok env)
        ↔ consumer ∈ g.ids ∧ ¬ g.HasCycle consumer scope) := by
  rcases h.valid.resolve_cases consumer scope profiles with
    ⟨hmissing, hfailed⟩ | ⟨hdeclared, hcyclic, ids, hfailed⟩ | ⟨hdeclared, hacyclic, env, henv⟩
  · simp [hmissing, hfailed, unknown]
  · simp [hdeclared, hcyclic, hfailed]
  · simp [hdeclared, hacyclic, henv]

/-- A package that is built with a compiler which cannot be built without itself. -/
def bootstrap : Graph where
  root := some "app"
  nodes := [
    { Node.ofName "app" with
      requirements := [⟨"lib", .requires, true⟩, ⟨"cc", .buildRequires, false⟩] },
    { Node.ofName "lib" with
      requirements := [⟨"cc", .requires, false⟩] },
    { Node.ofName "cc" with
      requirements := [⟨"ld", .requires, false⟩] },
    { Node.ofName "ld" with
      requirements := [⟨"cc", .buildRequires, false⟩] }]
  ids_nodup := by decide

/-- Only the build of the package follows the requirements that make up the cycle. -/
theorem resolve_bootstrap :
    bootstrap.validate = .ok ()
      ∧ (∃ ids, bootstrap.resolve "app" .build [.empty] = .error (.cyclicDependency ids))
      ∧ (∃ env, bootstrap.resolve "app" .run [.empty] = .ok env)
      ∧ bootstrap.resolve "gcc" .run [.empty] = .error (.unknownNode "gcc" ["cc"]) := by
  have hvalid : bootstrap.validate = .ok () := by
    cbv
  have hbuild : bootstrap.HasCycle "app" .build := by
    have hneeds : bootstrap.Leads isToolEdge "cc" "ld" :=
      mem_targets_iff.mp (by decide : "ld" ∈ bootstrap.targets isToolEdge "cc")
    have hbuiltWith : bootstrap.Leads isToolEdge "ld" "cc" :=
      mem_targets_iff.mp (by decide : "cc" ∈ bootstrap.targets isToolEdge "ld")
    refine .inr ⟨rfl, "cc", .root (by decide), ?_⟩
    exact .tail (.single hneeds) hbuiltWith
  have hrun : ¬ bootstrap.HasCycle "app" .run := by
    rintro (⟨id, hid, hcycle⟩ | ⟨hscope, _⟩)
    · have hfound : bootstrap.discover isHostEdge ["lib"] = .ok ["lib"] := by
        cbv
      have hlib : id = "lib" :=
        List.mem_singleton.mp (((discover_ok_spec hfound).2.1 id).mpr hid)
      subst hlib
      obtain ⟨next, hnext, _⟩ := Relation.TransGen.head'_iff.mp hcycle
      have hnone : bootstrap.targets isHostEdge "lib" = [] := by
        decide
      rw [← mem_targets_iff, hnone] at hnext
      cases hnext
    · cases hscope
  have hresolved := resolve_fails_iff (.inl hvalid)
  refine ⟨hvalid, ?_, ?_, ?_⟩
  · exact (hresolved "app" .build [.empty]).2.2.1.mpr ⟨by decide, hbuild⟩
  · exact (hresolved "app" .run [.empty]).2.2.2.mpr ⟨by decide, hrun⟩
  · rw [(hresolved "gcc" .run [.empty]).2.1 (by decide)]
    cbv

end EnvLayers.Graph
