import EnvLayers.Proofs.Environment.View
import EnvLayers.Proofs.Graph.Declared

/-
Module: EnvLayers.Proofs.Environment.Influence
Purpose: Which requirements have no influence on the environment of a consumer: those that no
  closure of the scope follows, and whether tools and test requirements are visible, whichever way a
  graph file says so.
Main exports: Graph.FollowedAlike, Graph.keepRequirements, FollowedAlike.resolve_eq,
  Graph.requirements_without_influence
-/

namespace EnvLayers

/-- The package without its requirements. -/
def Node.bare (n : Node) : Node := { n with requirements := [] }

/-- The package with those of its requirements that a test keeps. -/
def Node.keepRequirements (keep : String → Requirement → Bool) (n : Node) : Node :=
  { n with requirements := n.requirements.filter (keep n.id) }

theorem Node.id_keepRequirements (keep : String → Requirement → Bool) (n : Node) :
    (n.keepRequirements keep).id = n.id := rfl

namespace Graph

/-- Two graphs of the same packages, up to what these require, in which a scope of the consumer
follows the same requirements. -/
structure FollowedAlike (g g' : Graph) (consumer : String) (scope : Scope) : Prop where
  settings : g'.settingsOf scope = g.settingsOf scope
  nodes : g'.nodes.map Node.bare = g.nodes.map Node.bare
  hostRoots : g'.hostRoots consumer scope = g.hostRoots consumer scope
  hosts : ∀ id, g'.targets isHostEdge id = g.targets isHostEdge id
  toolRoots : scope = .build →
    g'.targets (·.kind == .buildRequires) consumer = g.targets (·.kind == .buildRequires) consumer
  tools : scope = .build → ∀ id, g'.targets isToolEdge id = g.targets isToolEdge id

variable {g g' : Graph} {consumer : String} {scope : Scope} {c n : Node}
  {follow : Requirement → Bool} {keep : String → Requirement → Bool}

/-! ### Following the same requirements -/

namespace FollowedAlike

theorem ids_eq (h : g.FollowedAlike g' consumer scope) : g'.ids = g.ids := by
  have hids := congrArg (List.map (·.id)) h.nodes
  rwa [List.map_map, List.map_map] at hids

theorem map_bare_node?_eq (h : g.FollowedAlike g' consumer scope) (id : String) :
    (g'.node? id).map Node.bare = (g.node? id).map Node.bare :=
  map_node?_eq (fun _ => rfl : ∀ n : Node, n.bare.id = n.id) h.nodes id

theorem bare_counterpart (h : g.FollowedAlike g' consumer scope) (hn : g.node? n.id = some n) :
    (g'.counterpart n).bare = n.bare := by
  have hbare := h.map_bare_node?_eq n.id
  rw [hn, Option.map_some, Option.map_eq_some_iff] at hbare
  obtain ⟨n', hn', hsame⟩ := hbare
  rw [counterpart_of_node? hn hn', hsame]

theorem walkedAlike (h : g.FollowedAlike g' consumer scope)
    (hsame : ∀ id, g'.targets follow id = g.targets follow id) (roots : List String) :
    g.WalkedAlike g' follow roots := by
  intro id _
  rw [h.ids_eq]
  exact ⟨Iff.rfl, hsame id⟩

theorem sameParts (h : g.FollowedAlike g' consumer scope) (hc : g.node? consumer = some c) :
    g.SameParts g' c scope := by
  have hbuild : ∀ n, g.node? n.id = some n → (g'.counterpart n).buildEnv = n.buildEnv :=
    fun n hn => congrArg (·.buildEnv) (h.bare_counterpart hn)
  have hrun : ∀ n, g.node? n.id = some n → (g'.counterpart n).runParts = n.runParts :=
    fun n hn => congrArg (·.runParts) (h.bare_counterpart hn)
  cases scope with
  | run =>
      exact fun nodes hnodes n hn => hrun n ((host_spec .run hc hnodes).2.declared n hn)
  | build =>
      intro tools hosts htools hhosts
      have hdeclared := (tools_spec hc htools).2.declared
      refine ⟨fun n hn => ⟨hrun n (hdeclared n hn), fun _ => hbuild n (hdeclared n hn)⟩, ?_⟩
      exact fun n hn => hbuild n ((host_spec .build hc hhosts).2.declared n hn)

theorem seenAlike (h : g.FollowedAlike g' consumer scope) :
    g.SeenAlike g' id consumer scope where
  reports := reports_of_ids_eq h.ids_eq
  settings := h.settings
  name := by
    have hname := congrArg (Option.map (·.name)) (h.map_bare_node?_eq consumer)
    rwa [Option.map_map, Option.map_map] at hname
  hostRoots := h.hostRoots
  hosts := h.walkedAlike h.hosts _
  toolRoots := h.toolRoots
  tools hscope := h.walkedAlike (h.tools hscope) _
  parts _ hc := h.sameParts hc

/-- Requirements that are not followed have no influence. -/
theorem resolve_eq (h : g.FollowedAlike g' consumer scope) (profiles : List Profile) :
    g'.resolve consumer scope profiles = g.resolve consumer scope profiles :=
  h.seenAlike.resolve_eq_self rfl

end FollowedAlike

/-! ### Dropping requirements -/

/-- The graph with those requirements that a test keeps, by the id of the package. -/
def keepRequirements (g : Graph) (keep : String → Requirement → Bool) : Graph :=
  g.mapNodes (Node.keepRequirements keep) (Node.id_keepRequirements keep)

/-- Following takes no notice of dropped requirements that it would not follow. -/
theorem targets_keepRequirements {id : String} (h : ∀ r, follow r = true → keep id r = true) :
    (g.keepRequirements keep).targets follow id = g.targets follow id := by
  refine targets_mapNodes fun n hn => ?_
  have hfilter : (n.requirements.filter (keep id)).filter follow
      = n.requirements.filter follow := by
    rw [List.filter_filter]
    refine List.filter_congr fun r _ => ?_
    cases hfollow : follow r with
    | false =>
        rfl
    | true =>
        rw [h r hfollow]
        rfl
  rw [Node.targets, Node.keepRequirements, hn, hfilter, Node.targets]

theorem map_bare_keepRequirements (g : Graph) (keep : String → Requirement → Bool) :
    (g.keepRequirements keep).nodes.map Node.bare = g.nodes.map Node.bare := by
  rw [keepRequirements, mapNodes, List.map_map]
  rfl

/-- A run follows visible requirements for the host, and from the consumer all requirements but
tools. -/
def countsForRun (consumer id : String) (r : Requirement) : Bool :=
  if id = consumer then r.kind != .buildRequires else isHostEdge r

theorem isHostEdge_iff {r : Requirement} : isHostEdge r ↔ r.kind = .requires ∧ r.visible := by
  simp [isHostEdge]

theorem countsForRun_of_isHostEdge {id : String} {r : Requirement} (h : isHostEdge r = true) :
    countsForRun consumer id r = true := by
  unfold countsForRun
  split
  · rw [(isHostEdge_iff.mp h).1]
    rfl
  · exact h

theorem followedAlike_run (g : Graph) (consumer : String) :
    g.FollowedAlike (g.keepRequirements (countsForRun consumer)) consumer .run where
  settings := rfl
  nodes := map_bare_keepRequirements ..
  hostRoots := by
    have hkept : ∀ kind, kind ≠ .buildRequires → ∀ r : Requirement, (r.kind == kind) = true →
        countsForRun consumer consumer r = true := by
      intro kind hkind r hr
      simpa [countsForRun, beq_iff_eq.mp hr] using hkind
    rw [hostRoots, hostRoots, targets_keepRequirements (hkept .requires (by decide)),
      targets_keepRequirements (hkept .testRequires (by decide))]
  hosts _ := targets_keepRequirements fun _ => countsForRun_of_isHostEdge
  toolRoots hscope := nomatch hscope
  tools hscope := nomatch hscope

theorem followedAlike_build (g : Graph) (consumer : String) :
    g.FollowedAlike (g.keepRequirements fun _ r => r.kind != .testRequires) consumer .build where
  settings := rfl
  nodes := map_bare_keepRequirements ..
  hostRoots := targets_keepRequirements fun r hr => by
    rw [beq_iff_eq.mp hr]
    rfl
  hosts _ := targets_keepRequirements fun r hr => by
    rw [(isHostEdge_iff.mp hr).1]
    rfl
  toolRoots _ := targets_keepRequirements fun r hr => by
    rw [beq_iff_eq.mp hr]
    rfl
  tools _ _ := targets_keepRequirements fun r hr => by
    rcases r with ⟨_, kind, _⟩
    cases kind with
    | requires => rfl
    | buildRequires => rfl
    | testRequires => cases hr

/-! ### Visibility -/

/-- Following takes no notice of a visibility that it does not look at. -/
theorem targets_withoutFlags (hfollow : ∀ r, follow r.withoutFlag = follow r) (id : String) :
    g.withoutFlags.targets follow id = g.targets follow id := by
  refine targets_mapNodes fun n _ => ?_
  have hcomp : follow ∘ Requirement.withoutFlag = follow := funext hfollow
  rw [Node.targets, Node.withoutFlags, List.filter_map, hcomp, List.map_map]
  exact List.map_congr_left fun r _ => r.node_withoutFlag

theorem isHostEdge_withoutFlag (r : Requirement) : isHostEdge r.withoutFlag = isHostEdge r := by
  unfold Requirement.withoutFlag
  split
  · rfl
  · next hother =>
      simp [isHostEdge, hother]

theorem isToolEdge_withoutFlag (r : Requirement) : isToolEdge r.withoutFlag = isToolEdge r := by
  simp [isToolEdge]

theorem followedAlike_withoutFlags (g : Graph) (consumer : String) (scope : Scope) :
    g.FollowedAlike g.withoutFlags consumer scope := by
  have hkind : ∀ kind, g.withoutFlags.targets (·.kind == kind) consumer
      = g.targets (·.kind == kind) consumer := fun kind =>
    targets_withoutFlags (fun r => by rw [r.kind_withoutFlag]) consumer
  exact {
    settings := by cases scope <;> rfl
    nodes := by
      rw [withoutFlags, mapNodes, List.map_map]
      rfl
    hostRoots := by cases scope <;> simp only [hostRoots, hkind]
    hosts := targets_withoutFlags isHostEdge_withoutFlag
    toolRoots := fun _ => hkind .buildRequires
    tools := fun _ => targets_withoutFlags isToolEdge_withoutFlag }

/-- Resolving takes no notice of the visibility of tools and test requirements. -/
theorem resolve_withoutFlags (g : Graph) (consumer : String) (scope : Scope)
    (profiles : List Profile) :
    g.withoutFlags.resolve consumer scope profiles = g.resolve consumer scope profiles :=
  (g.followedAlike_withoutFlags consumer scope).resolve_eq profiles

theorem resolve_eq_of_withoutFlags_eq (h : g'.withoutFlags = g.withoutFlags) (consumer : String)
    (scope : Scope) (profiles : List Profile) :
    g'.resolve consumer scope profiles = g.resolve consumer scope profiles := by
  rw [← resolve_withoutFlags g', h, resolve_withoutFlags]

/-- Outcomes that differ in that visibility alone resolve alike. -/
theorem bind_resolve_eq {x x' : Outcome Graph} (h : x'.map withoutFlags = x.map withoutFlags)
    (consumer : String) (scope : Scope) (profiles : List Profile) :
    (x' >>= fun g => g.resolve consumer scope profiles)
      = x >>= fun g => g.resolve consumer scope profiles := by
  rcases map_eq_cases h with ⟨failure, rfl, rfl⟩ | ⟨g, g', rfl, rfl, hg⟩
  · rfl
  · exact resolve_eq_of_withoutFlags_eq hg consumer scope profiles

/-- Requirements that a scope does not reach have no influence on its answer, be it an environment
or a failure. A run takes no notice of the tools of the consumer, nor of anything that other
packages require but visibly for the host; a build takes no notice of test requirements; and neither
looks at whether tools and test requirements are visible, so that in the lists of these in a graph
file an id can be written for a mapping that says no more. -/
theorem requirements_without_influence (g : Graph) (consumer : String) (profiles : List Profile) :
    (g.keepRequirements (countsForRun consumer)).resolve consumer .run profiles
        = g.resolve consumer .run profiles
      ∧ (g.keepRequirements fun _ r => r.kind != .testRequires).resolve consumer .build profiles
        = g.resolve consumer .build profiles
      ∧ (∀ g' : Graph, g'.withoutFlags = g.withoutFlags → ∀ scope,
        g'.resolve consumer scope profiles = g.resolve consumer scope profiles)
      ∧ (∀ id, DeclaredRequirement.SameProvider (.text id) (.map [(.text "node", .text id)]))
      ∧ ∀ text text' d d', Yaml.read text = .ok d → Yaml.read text' = .ok d' →
        DeclaredGraph.FilesAlike d d' → ∀ scope,
          (ofYaml text' >>= fun g => g.resolve consumer scope profiles)
              = (ofYaml text >>= fun g => g.resolve consumer scope profiles)
            ∧ ∀ (files files' : FileView) path, files.readText path = .ok text →
              files'.readText path = .ok text' →
              (load files' path >>= fun g => g.resolve consumer scope profiles)
                = load files path >>= fun g => g.resolve consumer scope profiles := by
  refine ⟨(g.followedAlike_run consumer).resolve_eq profiles,
    (g.followedAlike_build consumer).resolve_eq profiles,
    fun g' h scope => resolve_eq_of_withoutFlags_eq h consumer scope profiles,
    DeclaredRequirement.sameProvider_id, ?_⟩
  intro text text' d d' hread hread' halike scope
  refine ⟨bind_resolve_eq (map_ofYaml_eq hread hread' halike) consumer scope profiles, ?_⟩
  intro files files' path hfile hfile'
  exact bind_resolve_eq (map_load_eq hfile hfile' hread hread' halike) consumer scope profiles

/-- The contents of a graph file in which a package has one tool. -/
def oneTool (tool : Datum) : Datum :=
  .map [(.text "nodes", .seq [
    .map [(.text "name", .text "app"), (.text "build_requires", .seq [tool])],
    .map [(.text "name", .text "cc")]])]

/-- The file that names the tool by its id. -/
def plainFile : String := "nodes:\n- name: app\n  build_requires:\n  - cc\n- name: cc\n"

/-- The file that names the tool in a mapping. -/
def detailedFile : String :=
  "nodes:\n- name: app\n  build_requires:\n  - node: cc\n- name: cc\n"

/-- The events of such a file, with those of the tool in between. -/
def oneToolEvents (tool : List Yaml.Event) : List Yaml.Event :=
  let plain (text : String) : Yaml.Event := .scalar none none true text
  let before : List Yaml.Event :=
    [.mappingStart none none, plain "nodes", .sequenceStart none none, .mappingStart none none,
      plain "name", plain "app", plain "build_requires", .sequenceStart none none]
  let after : List Yaml.Event :=
    [.collectionEnd, .collectionEnd, .mappingStart none none, plain "name", plain "cc",
      .collectionEnd, .collectionEnd, .collectionEnd]
  before ++ tool ++ after

theorem scalarDatum_oneTool :
    ∀ text ∈ ["nodes", "name", "app", "build_requires", "cc", "node"],
      Yaml.Node.scalarDatum none true text = some (.text text) := by
  have htexts : ∀ text ∈ ["nodes", "name", "app", "build_requires", "cc", "node"],
      Yaml.Plain.read text = .text := by
    decide +kernel
  intro text hmem
  simp [Yaml.Node.scalarDatum, Yaml.Node.plainDatum, htexts text hmem, Yaml.Node.underTag]

theorem read_plainFile : Yaml.read plainFile = .ok (oneTool (.text "cc")) := by
  have hdocument : Yaml.Document.ofTokens (Yaml.Token.scan plainFile.toList)
      = ⟨oneToolEvents [.scalar none none true "cc"], .last⟩ := by
    decide +kernel
  rw [Yaml.read, hdocument]
  simp [oneToolEvents, Yaml.Node.ofEvents?, Yaml.Node.nest, Yaml.Node.finished, Yaml.Frame.add,
    Yaml.Frame.close, Yaml.Node.toDatum, Yaml.depthLimit, Yaml.Node.expand, scalarDatum_oneTool,
    Yaml.Node.addEntry, Yaml.Node.underTag, Datum.same]
  rfl

theorem read_detailedFile :
    Yaml.read detailedFile = .ok (oneTool (.map [(.text "node", .text "cc")])) := by
  have hdocument : Yaml.Document.ofTokens (Yaml.Token.scan detailedFile.toList)
      = ⟨oneToolEvents [.mappingStart none none, .scalar none none true "node",
          .scalar none none true "cc", .collectionEnd], .last⟩ := by
    decide +kernel
  rw [Yaml.read, hdocument]
  simp [oneToolEvents, Yaml.Node.ofEvents?, Yaml.Node.nest, Yaml.Node.finished, Yaml.Frame.add,
    Yaml.Frame.close, Yaml.Node.toDatum, Yaml.depthLimit, Yaml.Node.expand, scalarDatum_oneTool,
    Yaml.Node.addEntry, Yaml.Node.underTag, Datum.same]
  rfl

/-- Contents that differ in how they declare the tool. -/
theorem filesAlike_oneTool {tool tool' : Datum}
    (h : DeclaredRequirement.SameProvider tool tool') :
    DeclaredGraph.FilesAlike (oneTool tool) (oneTool tool') := by
  have happ : DeclaredNode.PackagesAlike
      (.map [(.text "name", .text "app"), (.text "build_requires", .seq [tool])])
      (.map [(.text "name", .text "app"), (.text "build_requires", .seq [tool'])]) :=
    .entries (.cons (.same ..) (.cons (.items (by decide) (.cons h .nil)) .nil))
  exact .entries (.cons (.items (by decide) (.cons happ (.cons (.same _) .nil))) .nil)

/-- The graph `toolchain` with its compiler re-exported. -/
def reexported : Graph :=
  { toolchain with
    nodes := toolchain.nodes.map fun n =>
      { n with requirements := n.requirements.map fun r => { r with visible := true } }
    ids_nodup := by decide }

/-- Files that all hold the same text. -/
def filesOf (text : String) : FileView where
  isFile _ := true
  canonical _ := .ok "/depenv.yaml"
  readText _ := .ok text
  places := ["/depenv.yaml"]
  canonical_mem h := by
    rw [← Except.ok.inj h]
    exact List.mem_cons_self

theorem requirements_without_influence_oneTool :
    reexported.resolve "app" .build [] = .ok toolchainBuild
      ∧ (∃ env, (ofYaml plainFile >>= fun g => g.resolve "app" .build []) = .ok env
        ∧ (ofYaml detailedFile >>= fun g => g.resolve "app" .build []) = .ok env)
      ∧ (load (filesOf detailedFile) "/depenv.yaml" >>= fun g => g.resolve "app" .build [])
        = load (filesOf plainFile) "/depenv.yaml" >>= fun g => g.resolve "app" .build [] := by
  obtain ⟨_, _, hflags, hprovider, hfiles⟩ := requirements_without_influence toolchain "app" []
  obtain ⟨hyaml, hload⟩ := hfiles _ _ _ _ read_plainFile read_detailedFile
    (filesAlike_oneTool (hprovider "cc")) .build
  obtain ⟨env, henv⟩ : ∃ env,
      (ofYaml plainFile >>= fun g => g.resolve "app" .build []) = .ok env := by
    rw [ofYaml, readDeclared, read_plainFile]
    refine ⟨⟨"app", .build, none, [], by decide⟩, ?_⟩
    cbv
  refine ⟨?_, ⟨env, henv, hyaml.trans henv⟩, hload _ _ _ rfl rfl⟩
  rw [hflags reexported (by rfl), resolve_toolchain]

end Graph

end EnvLayers
