import EnvLayers.Proofs.Environment.View

/-
Module: EnvLayers.Proofs.Environment.Locality
Purpose: The environment of a consumer depends on nothing but the settings, the profiles and the
  packages that requirements lead to from the consumer. Any other packages, and the order in which
  packages are declared, show only in the ids that a failure names as like a missing one.
Main exports: Graph.DependsOn, Graph.restate, Graph.AgreesFrom, AgreesFrom.seenAlike,
  Graph.resolve_of_agreesFrom
-/

namespace EnvLayers.Graph

/-- Requirements of any kind lead from the consumer to the id, in no step at all to itself. -/
def DependsOn (g : Graph) (consumer id : String) : Prop :=
  g.Reaches (fun _ => true) [consumer] id

/-- A failure as a graph reports it: a missing id comes with the ids of that graph that are like it.
-/
def restate (g : Graph) : Failure → Failure
  | .unknownNode id _ => g.unknown id
  | failure => failure

/-- Two graphs with the same settings that hold the same package, or none, under every id that the
consumer depends on. -/
structure AgreesFrom (g g' : Graph) (consumer : String) : Prop where
  settings : g'.settings = g.settings
  buildSettings : g'.buildSettings = g.buildSettings
  nodes : ∀ id, g.DependsOn consumer id → g'.node? id = g.node? id

variable {g g' : Graph} {consumer id : String} {follow : Requirement → Bool}
  {roots : List String} {scope : Scope} {c : Node}

/-! ### What a consumer depends on -/

theorem DependsOn.of_mem_targets (h : id ∈ g.targets follow consumer) :
    g.DependsOn consumer id := by
  obtain ⟨n, r, hn, hr, _, hid⟩ := mem_targets_iff.mp h
  exact .step (.root List.mem_cons_self) ⟨n, r, hn, hr, rfl, hid⟩

theorem DependsOn.of_reaches (hroots : ∀ r ∈ roots, g.DependsOn consumer r)
    (h : g.Reaches follow roots id) : g.DependsOn consumer id := by
  induction h with
  | root hroot =>
      exact hroots _ hroot
  | step _ huv ih =>
      obtain ⟨n, r, hn, hr, _, hv⟩ := huv
      exact .step ih ⟨n, r, hn, hr, rfl, hv⟩

/-- A consumer that is missing depends on nothing else. -/
theorem DependsOn.eq_of_missing (hmissing : consumer ∉ g.ids) (h : g.DependsOn consumer id) :
    id = consumer := by
  induction h with
  | root hroot =>
      exact List.mem_singleton.mp hroot
  | step _ huv ih =>
      obtain ⟨n, _, hn, _⟩ := huv
      exact absurd (ih ▸ mem_ids_of_node? hn) hmissing

theorem DependsOn.of_mem_hostRoots (h : id ∈ g.hostRoots consumer scope) :
    g.DependsOn consumer id := by
  cases scope with
  | build =>
      exact .of_mem_targets h
  | run =>
      exact (List.mem_append.mp h).elim .of_mem_targets .of_mem_targets

theorem DependsOn.of_isHost (h : g.IsHost consumer scope id) : g.DependsOn consumer id :=
  .of_reaches (fun _ hr => .of_mem_hostRoots hr) h

theorem DependsOn.of_isTool (h : g.IsTool consumer id) : g.DependsOn consumer id :=
  .of_reaches (fun _ hr => .of_mem_targets hr) h

/-! ### Graphs that agree from the consumer on -/

theorem reports_restate (g g' : Graph) : g.Reports g' g'.restate where
  unknown _ := rfl
  cyclicDependency _ := rfl

namespace AgreesFrom

theorem node?_consumer (h : g.AgreesFrom g' consumer) : g'.node? consumer = g.node? consumer :=
  h.nodes consumer (.root List.mem_cons_self)

theorem settingsOf_eq (h : g.AgreesFrom g' consumer) (scope : Scope) :
    g'.settingsOf scope = g.settingsOf scope := by
  cases scope with
  | build =>
      exact h.buildSettings
  | run =>
      exact h.settings

theorem targets_eq (h : g.AgreesFrom g' consumer) (hid : g.DependsOn consumer id)
    (follow : Requirement → Bool) : g'.targets follow id = g.targets follow id := by
  rw [targets, targets, h.nodes id hid]

theorem walkedAlike (h : g.AgreesFrom g' consumer) (hroots : ∀ r ∈ roots, g.DependsOn consumer r) :
    g.WalkedAlike g' follow roots := by
  intro id hid
  have hdepends : g.DependsOn consumer id := .of_reaches hroots hid
  refine ⟨?_, h.targets_eq hdepends follow⟩
  rw [mem_ids_iff, mem_ids_iff, h.nodes id hdepends]

theorem counterpart_eq (h : g.AgreesFrom g' consumer) {n : Node} (hn : g.node? n.id = some n)
    (hid : g.DependsOn consumer n.id) : g'.counterpart n = n :=
  counterpart_of_node? hn ((h.nodes n.id hid).trans hn)

theorem sameParts (h : g.AgreesFrom g' consumer) (hc : g.node? consumer = some c)
    (scope : Scope) : g.SameParts g' c scope := by
  have hhost : ∀ {nodes}, g.hostClosure c scope = .ok nodes → ∀ n ∈ nodes,
      g'.counterpart n = n := by
    intro nodes hnodes n hn
    have horders := (host_spec scope hc hnodes).2
    exact h.counterpart_eq (horders.declared n hn) (.of_isHost (horders.reaches hn))
  cases scope with
  | run =>
      intro nodes hnodes n hn
      rw [hhost hnodes n hn]
  | build =>
      intro tools hosts htools hhosts
      refine ⟨fun n hn => ?_, fun n hn => ?_⟩
      · have horders := (tools_spec hc htools).2
        rw [h.counterpart_eq (horders.declared n hn) (.of_isTool (horders.reaches hn))]
        exact ⟨rfl, fun _ => rfl⟩
      · rw [hhost hhosts n hn]

/-- A scope of the consumer reads the same of both graphs. -/
theorem seenAlike (h : g.AgreesFrom g' consumer) (scope : Scope) :
    g.SeenAlike g' g'.restate consumer scope where
  reports := reports_restate g g'
  settings := h.settingsOf_eq scope
  name := by
    rw [h.node?_consumer]
  hostRoots := by
    cases scope <;> simp only [hostRoots, h.targets_eq (.root List.mem_cons_self)]
  hosts := h.walkedAlike fun _ hr => .of_mem_hostRoots hr
  toolRoots _ := h.targets_eq (.root List.mem_cons_self) _
  tools _ := h.walkedAlike fun _ hr => .of_mem_targets hr
  parts _ hc := h.sameParts hc scope

end AgreesFrom

/-- Resolving depends only on what the consumer depends on. Graphs that agree on it give the same
environment, or fail with the same cycle or the same missing id, whatever else they hold and in
whatever order they hold it; only the ids that are like a missing one are each graph's own. -/
theorem resolve_of_agreesFrom {g g' : Graph} {consumer : String} (h : g.AgreesFrom g' consumer)
    (scope : Scope) (profiles : List Profile) :
    g'.resolve consumer scope profiles
      = (g.resolve consumer scope profiles).mapError g'.restate :=
  (h.seenAlike scope).resolve_eq rfl

/-- The graph `toolchain` among other packages and in another order. One of them requires the
package itself, and one that nothing leads to is missing a requirement. -/
def crowded : Graph where
  settings := ⟨some .linux⟩
  buildSettings := ⟨some .linux⟩
  nodes := [
    { Node.ofName "cc" with
      buildEnv := [.define "CC" "cc", .append "CFLAGS" "-O2"]
      runEnv := [.append "TRACE" "cc"]
      folder := some "/opt/cc"
      requirements := [⟨"zlib", .requires, true⟩] },
    { Node.ofName "zlib-ng" with
      buildEnv := [.define "CFLAGS" "-lz-ng"]
      requirements := [⟨"cmake", .buildRequires, false⟩] },
    { Node.ofName "zlib" with
      buildEnv := [.define "CFLAGS" "-lz", .unset "DEBUG"]
      runEnv := [.prepend "TRACE" "zlib"] },
    { Node.ofName "suite" with
      requirements := [⟨"app", .requires, true⟩, ⟨"zlib-ng", .requires, true⟩] },
    { Node.ofName "lib" with
      buildEnv := [.append "CFLAGS" "-llib"]
      requirements := [⟨"zlib", .requires, true⟩] },
    { Node.ofName "app" with
      requirements := [⟨"lib", .requires, true⟩, ⟨"cc", .buildRequires, false⟩] }]
  ids_nodup := by decide

theorem resolve_crowded :
    crowded.resolve "app" .build [] = .ok toolchainBuild
      ∧ crowded.resolve "z" .run [] = .error (.unknownNode "z" ["zlib-ng", "zlib"])
      ∧ toolchain.resolve "z" .run [] = .error (.unknownNode "z" ["zlib"]) := by
  have happ : toolchain.AgreesFrom crowded "app" := by
    refine ⟨rfl, rfl, fun id hid => ?_⟩
    have hfound : toolchain.discover (fun _ => true) ["app"]
        = .ok ["app", "lib", "cc", "zlib"] := by
      cbv
    have hnodes : ∀ id ∈ ["app", "lib", "cc", "zlib"],
        crowded.node? id = toolchain.node? id := by
      decide
    exact hnodes id (((discover_ok_spec hfound).2.1 id).mpr hid)
  have hmissing : toolchain.AgreesFrom crowded "z" := by
    refine ⟨rfl, rfl, fun id hid => ?_⟩
    have hself : id = "z" := hid.eq_of_missing (by decide)
    rw [hself]
    decide
  have hlibrary : toolchain.resolve "z" .run [] = .error (.unknownNode "z" ["zlib"]) := by
    cbv
  refine ⟨?_, ?_, hlibrary⟩
  · rw [resolve_of_agreesFrom happ, resolve_toolchain]
    rfl
  · rw [resolve_of_agreesFrom hmissing, hlibrary]
    cbv

end EnvLayers.Graph
