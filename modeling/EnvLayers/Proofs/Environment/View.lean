import EnvLayers.Proofs.Environment.Resolve
import EnvLayers.Proofs.Graph.Alike
import EnvLayers.Proofs.Profile.Groups

/-
Module: EnvLayers.Proofs.Environment.View
Purpose: What the environment of a consumer is read from: who requires whom, the settings of the
  scope, the sections of the profiles for the scope, and of the packages in the closures of the
  scope the parts that the scope uses. Inputs that agree on that have the same environment, or fail
  alike.
Main exports: Graph.IsTool, Graph.IsHost, Node.runParts, Graph.SameParts, Graph.SeenAlike,
  tools_spec, host_spec, SeenAlike.resolve_eq, Alike.resolve_eq
-/

namespace EnvLayers

/-! ### The parts of packages -/

/-- The parts of a package that count where it runs: its runtime environment, and the folder and the
layout that the implicit directories come from. -/
def Node.runParts (n : Node) : List Op × Option String × Layout := (n.runEnv, n.folder, n.layout)

namespace Graph

theorem runOps_eq {n n' : Node} (h : n'.runParts = n.runParts) (os : Option Os) :
    runOps os n' = runOps os n := by
  have hrunEnv : n'.runEnv = n.runEnv := congrArg (·.1) h
  have hfolder : n'.folder = n.folder := congrArg (·.2.1) h
  have hlayout : n'.layout = n.layout := congrArg (·.2.2) h
  rw [runOps, runOps, Node.implicitRunEnv, Node.implicitRunEnv, hrunEnv, hfolder, hlayout]

/-! ### The closures of a consumer -/

/-- The ids that the host packages of a consumer are found from: what it requires for the host and,
where it is run, for its tests. -/
def hostRoots (g : Graph) (consumer : String) : Scope → List String
  | .build => g.targets (·.kind == .requires) consumer
  | .run => g.targets (·.kind == .requires) consumer ++ g.targets (·.kind == .testRequires) consumer

/-- An id among the host packages of a consumer. -/
def IsHost (g : Graph) (consumer : String) (scope : Scope) (id : String) : Prop :=
  g.Reaches isHostEdge (g.hostRoots consumer scope) id

/-- An id among the tools of a consumer. -/
def IsTool (g : Graph) (consumer id : String) : Prop :=
  g.Reaches isToolEdge (g.targets (·.kind == .buildRequires) consumer) id

/-- The host packages of a consumer in a scope, in priority order. -/
def hostClosure (g : Graph) (consumer : Node) : Scope → Outcome (List Node)
  | .build => g.hosts consumer
  | .run => g.runtime consumer

variable {g g' : Graph} {consumer : String} {c : Node} {nodes : List Node}

theorem tools_spec (hc : g.node? consumer = some c) (h : g.tools c = .ok nodes) :
    ¬ g.Cyclic isToolEdge (g.targets (·.kind == .buildRequires) consumer)
      ∧ g.Orders isToolEdge (g.targets (·.kind == .buildRequires) consumer) nodes := by
  rw [targets_of_node? hc]
  exact (closure_ok_spec h).2

theorem host_spec (scope : Scope) (hc : g.node? consumer = some c)
    (h : g.hostClosure c scope = .ok nodes) :
    ¬ g.Cyclic isHostEdge (g.hostRoots consumer scope)
      ∧ g.Orders isHostEdge (g.hostRoots consumer scope) nodes := by
  cases scope with
  | build =>
      rw [hostRoots, targets_of_node? hc]
      exact (closure_ok_spec h).2
  | run =>
      rw [hostRoots, targets_of_node? hc, targets_of_node? hc, Node.targets, Node.targets,
        ← List.map_append]
      exact (closure_ok_spec h).2

/-- What is listed in an order is reached. -/
theorem Orders.reaches {follow : Requirement → Bool} {roots : List String}
    (h : g.Orders follow roots nodes) {n : Node} (hn : n ∈ nodes) : g.Reaches follow roots n.id :=
  (h.mem_iff n.id).mp (List.mem_map.mpr ⟨n, hn, rfl⟩)

/-- What is reached is listed. -/
theorem Orders.mem_of_reaches {follow : Requirement → Bool} {roots : List String}
    (h : g.Orders follow roots nodes) {id : String} {n : Node} (hn : g.node? id = some n)
    (hid : g.Reaches follow roots id) : n ∈ nodes := by
  rcases List.mem_map.mp ((h.mem_iff id).mpr hid) with ⟨m, hm, rfl⟩
  have hdeclared := h.declared m hm
  rw [hn, Option.some.injEq] at hdeclared
  exact hdeclared ▸ hm

/-! ### Graphs that look the same to a consumer -/

/-- The packages in the closures of a scope have, in another graph, the same parts as far as the
scope uses them. -/
def SameParts (g g' : Graph) (consumer : Node) : Scope → Prop
  | .run => ∀ nodes, g.runtime consumer = .ok nodes →
      ∀ n ∈ nodes, (g'.counterpart n).runParts = n.runParts
  | .build => ∀ tools hosts, g.tools consumer = .ok tools → g.hosts consumer = .ok hosts →
      (∀ n ∈ tools, (g'.counterpart n).runParts = n.runParts
        ∧ (isDirectTool consumer n → (g'.counterpart n).buildEnv = n.buildEnv))
      ∧ ∀ n ∈ hosts, (g'.counterpart n).buildEnv = n.buildEnv

theorem flatMap_reverse_map {α β : Type} {φ : α → α} {f f' : α → List β} {xs : List α}
    (h : ∀ x ∈ xs, f' (φ x) = f x) :
    (xs.map φ).reverse.flatMap f' = xs.reverse.flatMap f := by
  rw [← List.map_reverse, List.flatMap_map]
  exact List.flatMap_congr fun x hx => h x (List.mem_reverse.mp hx)

/-- What a scope of a consumer reads of a graph is the same in another one, as far as the packages
that both have agree. Failures are those of the graph as the other one reports them. -/
structure SeenAlike (g g' : Graph) (restate : Failure → Failure) (consumer : String)
    (scope : Scope) : Prop where
  reports : g.Reports g' restate
  settings : g'.settingsOf scope = g.settingsOf scope
  name : (g'.node? consumer).map (·.name) = (g.node? consumer).map (·.name)
  hostRoots : g'.hostRoots consumer scope = g.hostRoots consumer scope
  hosts : g.WalkedAlike g' isHostEdge (g.hostRoots consumer scope)
  toolRoots : scope = .build →
    g'.targets (·.kind == .buildRequires) consumer = g.targets (·.kind == .buildRequires) consumer
  tools : scope = .build →
    g.WalkedAlike g' isToolEdge (g.targets (·.kind == .buildRequires) consumer)
  parts : ∀ c, g.node? consumer = some c → g.SameParts g' c scope

/-- The ids that a consumer requires in a kind are the targets of that kind. -/
theorem map_node_requirementsOfKind (hc : g.node? consumer = some c) (kind : RequirementKind) :
    (c.requirementsOfKind kind).map (·.node) = g.targets (·.kind == kind) consumer := by
  rw [targets_of_node? hc]
  rfl

theorem isDirectTool_iff_mem_targets {n : Node} (hc : g.node? consumer = some c) :
    isDirectTool c n ↔ n.id ∈ g.targets (·.kind == .buildRequires) consumer := by
  rw [← map_node_requirementsOfKind hc]
  simp [isDirectTool]

/-- The host packages are the closure of the host roots. -/
theorem exists_hostClosure_eq (hc : g.node? consumer = some c) (scope : Scope) :
    ∃ requirements, g.hostClosure c scope = g.closure isHostEdge requirements
      ∧ requirements.map (·.node) = g.hostRoots consumer scope := by
  cases scope with
  | build =>
      exact ⟨_, rfl, map_node_requirementsOfKind hc _⟩
  | run =>
      refine ⟨_, rfl, ?_⟩
      rw [List.map_append, map_node_requirementsOfKind hc, map_node_requirementsOfKind hc,
        hostRoots]

section WalkedAlike

variable {restate : Failure → Failure} {scope : Scope} {c' : Node}

/-- The tools of a consumer are found alike in graphs that are walked alike from them. -/
theorem WalkedAlike.tools_eq
    (h : g.WalkedAlike g' isToolEdge (g.targets (·.kind == .buildRequires) consumer))
    (hreports : g.Reports g' restate)
    (hroots : g'.targets (·.kind == .buildRequires) consumer
      = g.targets (·.kind == .buildRequires) consumer)
    (hc : g.node? consumer = some c) (hc' : g'.node? consumer = some c') :
    g'.tools c' = ((g.tools c).map (List.map g'.counterpart)).mapError restate := by
  have hrequired := map_node_requirementsOfKind hc .buildRequires
  refine WalkedAlike.closure_eq (hrequired ▸ h) hreports ?_
  rw [map_node_requirementsOfKind hc', hrequired, hroots]

/-- The host packages of a consumer are found alike in graphs that are walked alike from them. -/
theorem WalkedAlike.hostClosure_eq
    (h : g.WalkedAlike g' isHostEdge (g.hostRoots consumer scope)) (hreports : g.Reports g' restate)
    (hroots : g'.hostRoots consumer scope = g.hostRoots consumer scope)
    (hc : g.node? consumer = some c) (hc' : g'.node? consumer = some c') :
    g'.hostClosure c' scope
      = ((g.hostClosure c scope).map (List.map g'.counterpart)).mapError restate := by
  obtain ⟨requirements, hclosure, hrequired⟩ := exists_hostClosure_eq hc scope
  obtain ⟨requirements', hclosure', hrequired'⟩ := exists_hostClosure_eq hc' scope
  rw [hclosure, hclosure']
  exact (hrequired ▸ h).closure_eq hreports (by rw [hrequired', hrequired, hroots])

end WalkedAlike

namespace SeenAlike

variable {restate : Failure → Failure} {scope : Scope} {profiles profiles' : List Profile}
  {c' : Node}

theorem exists_consumer (h : g.SeenAlike g' restate consumer scope)
    (hc : g.node? consumer = some c) : ∃ c', g'.node? consumer = some c' ∧ c'.name = c.name := by
  have hname := h.name
  rw [hc, Option.map_some, Option.map_eq_some_iff] at hname
  exact hname

theorem tools_eq (h : g.SeenAlike g' restate consumer .build) (hc : g.node? consumer = some c)
    (hc' : g'.node? consumer = some c') :
    g'.tools c' = ((g.tools c).map (List.map g'.counterpart)).mapError restate :=
  (h.tools rfl).tools_eq h.reports (h.toolRoots rfl) hc hc'

theorem hostClosure_eq (h : g.SeenAlike g' restate consumer scope)
    (hc : g.node? consumer = some c) (hc' : g'.node? consumer = some c') :
    g'.hostClosure c' scope
      = ((g.hostClosure c scope).map (List.map g'.counterpart)).mapError restate :=
  h.hosts.hostClosure_eq h.reports h.hostRoots hc hc'

theorem toolOps_counterpart (h : g.SeenAlike g' restate consumer .build)
    (hc : g.node? consumer = some c) (hc' : g'.node? consumer = some c') {n : Node}
    (hrun : (g'.counterpart n).runParts = n.runParts)
    (hbuild : isDirectTool c n → (g'.counterpart n).buildEnv = n.buildEnv) (os : Option Os) :
    toolOps c' os (g'.counterpart n) = toolOps c os n := by
  have hdirect : isDirectTool c' (g'.counterpart n) ↔ isDirectTool c n := by
    rw [isDirectTool_iff_mem_targets hc', isDirectTool_iff_mem_targets hc, h.toolRoots rfl,
      id_counterpart]
  simp only [toolOps, ← isDirectTool_iff, runOps_eq hrun, hdirect]
  split
  · next hmem =>
      rw [hbuild hmem]
  · rfl

theorem profileOps_eq (hname : c'.name = c.name)
    (hprofiles : profiles'.map (·.environment scope) = profiles.map (·.environment scope)) :
    profileOps profiles' scope c' = profileOps profiles scope c := by
  rw [profileOps, profileOps, Profile.environment_compose, Profile.environment_compose, hprofiles,
    hname]

/-- The operations that make up the environment are the same, or the closures fail alike. -/
theorem sequence_eq (h : g.SeenAlike g' restate consumer scope) (hc : g.node? consumer = some c)
    (hc' : g'.node? consumer = some c') (hname : c'.name = c.name)
    (hprofiles : profiles'.map (·.environment scope) = profiles.map (·.environment scope)) :
    g'.sequence c' profiles' scope = (g.sequence c profiles scope).mapError restate := by
  have hoverlay := profileOps_eq hname hprofiles
  have hhost := h.hostClosure_eq hc hc'
  have hparts := h.parts c hc
  cases scope with
  | run =>
      have hos : g'.settings = g.settings := h.settings
      simp only [hostClosure] at hhost
      simp only [sequence, hhost, hoverlay, hos]
      cases hnodes : g.runtime c with
      | error failure =>
          rfl
      | ok nodes =>
          have hops := flatMap_reverse_map fun n hn =>
            runOps_eq (hparts nodes hnodes n hn) g.settings.os
          simp only [Except.map, Except.mapError, bind, Except.bind, hops]
          rfl
  | build =>
      have hos : g'.buildSettings = g.buildSettings := h.settings
      simp only [hostClosure] at hhost
      simp only [sequence, h.tools_eq hc hc', hhost, hoverlay, hos]
      cases htools : g.tools c with
      | error failure =>
          rfl
      | ok tools =>
          cases hhosts : g.hosts c with
          | error failure =>
              rfl
          | ok hosts =>
              rcases hparts tools hosts htools hhosts with ⟨htool, hbuild⟩
              have htoolOps := flatMap_reverse_map fun n hn =>
                h.toolOps_counterpart hc hc' (htool n hn).1 (htool n hn).2 g.buildSettings.os
              have hhostOps := flatMap_reverse_map hbuild
              simp only [Except.map, Except.mapError, bind, Except.bind, htoolOps, hhostOps]
              rfl

/-- What resolving reads decides its answer. -/
theorem resolve_eq (h : g.SeenAlike g' restate consumer scope)
    (hprofiles : profiles'.map (·.environment scope) = profiles.map (·.environment scope)) :
    g'.resolve consumer scope profiles'
      = (g.resolve consumer scope profiles).mapError restate := by
  rw [resolve_eq_sequence, resolve_eq_sequence, node, node]
  cases hc : g.node? consumer with
  | none =>
      have hnone : g'.node? consumer = none := by
        simpa [hc] using h.name
      rw [hnone]
      simp only [bind, Except.bind, Except.mapError, h.reports.unknown]
  | some c =>
      obtain ⟨c', hc', hname⟩ := h.exists_consumer hc
      rw [hc']
      simp only [bind, Except.bind, h.sequence_eq hc hc' hname hprofiles, h.settings]
      cases g.sequence c profiles scope <;> rfl

/-- Graphs that report failures alike answer alike. -/
theorem resolve_eq_self (h : g.SeenAlike g' id consumer scope)
    (hprofiles : profiles'.map (·.environment scope) = profiles.map (·.environment scope)) :
    g'.resolve consumer scope profiles' = g.resolve consumer scope profiles := by
  rw [h.resolve_eq hprofiles]
  cases g.resolve consumer scope profiles <;> rfl

end SeenAlike

namespace Alike

variable {scope : Scope} {profiles profiles' : List Profile}

theorem hostRoots_eq (h : g.Alike g') (consumer : String) (scope : Scope) :
    g'.hostRoots consumer scope = g.hostRoots consumer scope := by
  cases scope <;> simp only [hostRoots, h.targets_eq]

theorem map_name_node?_eq (h : g.Alike g') (id : String) :
    (g'.node? id).map (·.name) = (g.node? id).map (·.name) := by
  have hname := congrArg (Option.map (·.2.1)) (h.map_shape_node?_eq id)
  rwa [Option.map_map, Option.map_map] at hname

theorem tools_eq {c' : Node} (h : g.Alike g') (hc : g.node? consumer = some c)
    (hc' : g'.node? consumer = some c') :
    g'.tools c' = (g.tools c).map (List.map g'.counterpart) := by
  rw [(h.walkedAlike _ _).tools_eq (reports_of_ids_eq h.ids_eq) (h.targets_eq ..) hc hc']
  cases g.tools c <;> rfl

theorem hostClosure_eq {c' : Node} (h : g.Alike g') (scope : Scope) (hc : g.node? consumer = some c)
    (hc' : g'.node? consumer = some c') :
    g'.hostClosure c' scope = (g.hostClosure c scope).map (List.map g'.counterpart) := by
  rw [(h.walkedAlike _ _).hostClosure_eq (reports_of_ids_eq h.ids_eq) (h.hostRoots_eq ..) hc hc']
  cases g.hostClosure c scope <;> rfl

theorem profileOps_counterpart (h : g.Alike g') (hc : g.node? consumer = some c)
    (profiles : List Profile) (scope : Scope) :
    profileOps profiles scope (g'.counterpart c) = profileOps profiles scope c := by
  rw [profileOps, profileOps, h.name_counterpart hc]

/-- Of graphs in which the same packages require the same, the settings and the parts decide. -/
theorem resolve_eq (h : g.Alike g') (hsettings : g'.settingsOf scope = g.settingsOf scope)
    (hprofiles : profiles'.map (·.environment scope) = profiles.map (·.environment scope))
    (hparts : ∀ c, g.node? consumer = some c → g.SameParts g' c scope) :
    g'.resolve consumer scope profiles' = g.resolve consumer scope profiles := by
  have hseen : g.SeenAlike g' id consumer scope :=
    { reports := reports_of_ids_eq h.ids_eq
      settings := hsettings
      name := h.map_name_node?_eq consumer
      hostRoots := h.hostRoots_eq consumer scope
      hosts := h.walkedAlike _ _
      toolRoots := fun _ => h.targets_eq ..
      tools := fun _ => h.walkedAlike _ _
      parts := hparts }
  exact hseen.resolve_eq_self hprofiles

end Alike

end Graph

end EnvLayers
