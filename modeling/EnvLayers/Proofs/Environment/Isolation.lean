import EnvLayers.Proofs.Environment.View

/-
Module: EnvLayers.Proofs.Environment.Isolation
Purpose: The two scopes of a consumer do not see each other. What is declared for the other scope,
  or by packages that do not take part in a scope, changes neither the environment of the scope nor
  the failure to make it.
Main exports: Graph.SameForRun, Graph.SameForBuild, Graph.scope_isolation
-/

namespace EnvLayers.Graph

/-- Two graphs that may differ in the settings of the build, in the build environments, and in
everything that packages outside of the host closure of a run contribute. -/
structure SameForRun (g g' : Graph) (consumer : String) : Prop where
  alike : g.Alike g'
  settings : g'.settings = g.settings
  hostParts : ∀ id, g.IsHost consumer .run id →
    (g'.node? id).map Node.runParts = (g.node? id).map Node.runParts

/-- Two graphs that may differ in the settings of the host, in what packages contribute to a run
that are no tools of the build, and in the build environments of packages that are neither required
as tools by the consumer itself nor in its host closure. -/
structure SameForBuild (g g' : Graph) (consumer : String) : Prop where
  alike : g.Alike g'
  settings : g'.buildSettings = g.buildSettings
  toolParts : ∀ id, g.IsTool consumer id →
    (g'.node? id).map Node.runParts = (g.node? id).map Node.runParts
  buildEnvs : ∀ id, id ∈ g.targets (·.kind == .buildRequires) consumer
      ∨ g.IsHost consumer .build id →
    (g'.node? id).map (·.buildEnv) = (g.node? id).map (·.buildEnv)

variable {g g' : Graph} {consumer : String} {c : Node}

theorem Alike.counterpart_part (h : g.Alike g') {α : Type} {part : Node → α} {n : Node}
    (hn : g.node? n.id = some n)
    (hpart : (g'.node? n.id).map part = (g.node? n.id).map part) :
    part (g'.counterpart n) = part n := by
  rwa [h.node?_counterpart hn, hn, Option.map_some, Option.map_some, Option.some.injEq] at hpart

theorem SameForRun.sameParts (h : g.SameForRun g' consumer) (hc : g.node? consumer = some c) :
    g.SameParts g' c .run := by
  intro nodes hnodes n hn
  have horders := (host_spec .run hc hnodes).2
  exact h.alike.counterpart_part (horders.declared n hn) (h.hostParts n.id (horders.reaches hn))

theorem SameForBuild.sameParts (h : g.SameForBuild g' consumer)
    (hc : g.node? consumer = some c) : g.SameParts g' c .build := by
  intro tools hosts htools hhosts
  have htool := (tools_spec hc htools).2
  have hhost := (host_spec .build hc hhosts).2
  refine ⟨fun n hn => ⟨?_, fun hdirect => ?_⟩, fun n hn => ?_⟩
  · exact h.alike.counterpart_part (htool.declared n hn) (h.toolParts n.id (htool.reaches hn))
  · exact h.alike.counterpart_part (htool.declared n hn)
      (h.buildEnvs n.id (.inl ((isDirectTool_iff_mem_targets hc).mp hdirect)))
  · exact h.alike.counterpart_part (hhost.declared n hn)
      (h.buildEnvs n.id (.inr (hhost.reaches hn)))

/-- Neither scope sees what is declared for the other one. A run has the same answer, failures
included, whatever the build environments, the settings of the build and the build sections of the
profiles are; a build has the same answer whatever the settings of the host and the run sections of
the profiles are, whatever packages that are no tools of it contribute to a run, and whatever build
environments are declared by packages that it neither requires as tools itself nor has among its
host packages. -/
theorem scope_isolation (g g' : Graph) (consumer : String) (profiles profiles' : List Profile) :
    (g.SameForRun g' consumer → profiles'.map (·.runEnv) = profiles.map (·.runEnv) →
        g'.resolve consumer .run profiles' = g.resolve consumer .run profiles)
      ∧ (g.SameForBuild g' consumer → profiles'.map (·.buildEnv) = profiles.map (·.buildEnv) →
        g'.resolve consumer .build profiles' = g.resolve consumer .build profiles) := by
  constructor
  · intro h hprofiles
    exact h.alike.resolve_eq h.settings hprofiles fun _ hc => h.sameParts hc
  · intro h hprofiles
    exact h.alike.resolve_eq h.settings hprofiles fun _ hc => h.sameParts hc

/-- The graph `toolchain` as a run may find it instead: built on another system, with another
compiler and other build environments. -/
def crossBuilt : Graph where
  settings := ⟨some .linux⟩
  buildSettings := ⟨some .windows⟩
  nodes := [
    { Node.ofName "app" with
      buildEnv := [.define "SELF" "app"]
      requirements := [⟨"lib", .requires, true⟩, ⟨"cc", .buildRequires, false⟩] },
    { Node.ofName "lib" with
      requirements := [⟨"zlib", .requires, true⟩] },
    { Node.ofName "zlib" with
      buildEnv := [.define "CFLAGS" "-lzlib"]
      runEnv := [.prepend "TRACE" "zlib"] },
    { Node.ofName "cc" with
      runEnv := [.append "TRACE" "clang"]
      folder := some "/opt/clang"
      requirements := [⟨"zlib", .requires, true⟩] }]
  ids_nodup := by decide

/-- The graph `toolchain` as a build may find it instead: run on another system, with another
layout of the library. -/
def crossRun : Graph where
  settings := ⟨none⟩
  buildSettings := ⟨some .linux⟩
  nodes := [
    { Node.ofName "app" with
      runEnv := [.define "SELF" "app"]
      folder := some "/opt/app"
      requirements := [⟨"lib", .requires, true⟩, ⟨"cc", .buildRequires, false⟩] },
    { Node.ofName "lib" with
      buildEnv := [.append "CFLAGS" "-llib"]
      runEnv := [.unset "TRACE"]
      folder := some "/opt/lib"
      requirements := [⟨"zlib", .requires, true⟩] },
    { Node.ofName "zlib" with
      buildEnv := [.define "CFLAGS" "-lz", .unset "DEBUG"]
      runEnv := [.prepend "TRACE" "zlib"] },
    { Node.ofName "cc" with
      buildEnv := [.define "CC" "cc", .append "CFLAGS" "-O2"]
      runEnv := [.append "TRACE" "cc"]
      folder := some "/opt/cc"
      requirements := [⟨"zlib", .requires, true⟩] }]
  ids_nodup := by decide

theorem scope_isolation_toolchain :
    crossBuilt.resolve "app" .run [{ Profile.empty with buildEnv := ⟨[(none, [.unset "CC"])]⟩ }]
        = toolchain.resolve "app" .run [.empty]
      ∧ crossRun.resolve "app" .build [{ Profile.empty with runEnv := ⟨[(none, [.unset "CC"])]⟩ }]
        = .ok toolchainBuild := by
  -- what a search finds from the roots is all that they lead to
  have hosts : ∀ scope id, toolchain.IsHost "app" scope id → id ∈ ["lib", "zlib"] := by
    intro scope id hid
    have hroots : toolchain.hostRoots "app" scope = ["lib"] := by
      cases scope <;> rfl
    have hfound : toolchain.discover isHostEdge ["lib"] = .ok ["lib", "zlib"] := by
      cbv
    exact ((discover_ok_spec hfound).2.1 id).mpr (hroots ▸ hid)
  have tools : ∀ id, toolchain.IsTool "app" id → id ∈ ["cc", "zlib"] := by
    intro id hid
    have hfound : toolchain.discover isToolEdge ["cc"] = .ok ["cc", "zlib"] := by
      cbv
    exact ((discover_ok_spec hfound).2.1 id).mpr hid
  have hrun : toolchain.SameForRun crossBuilt "app" := by
    refine ⟨by decide, rfl, fun id hid => ?_⟩
    have hparts : ∀ id ∈ ["lib", "zlib"],
        (crossBuilt.node? id).map Node.runParts = (toolchain.node? id).map Node.runParts := by
      decide
    exact hparts id (hosts .run id hid)
  have hbuild : toolchain.SameForBuild crossRun "app" := by
    refine ⟨by decide, rfl, fun id hid => ?_, fun id hid => ?_⟩
    · have hparts : ∀ id ∈ ["cc", "zlib"],
          (crossRun.node? id).map Node.runParts = (toolchain.node? id).map Node.runParts := by
        decide
      exact hparts id (tools id hid)
    · have hparts : ∀ id ∈ ["cc", "lib", "zlib"],
          (crossRun.node? id).map (·.buildEnv) = (toolchain.node? id).map (·.buildEnv) := by
        decide
      have hmem : id ∈ ["cc", "lib", "zlib"] :=
        hid.elim (fun hdirect => List.mem_append_left ["lib", "zlib"] hdirect)
          fun hhost => List.mem_cons_of_mem _ (hosts .build id hhost)
      exact hparts id hmem
  have hresolved : toolchain.resolve "app" .build [.empty] = .ok toolchainBuild := by
    cbv
  exact ⟨(scope_isolation toolchain crossBuilt "app" [.empty] _).1 hrun rfl,
    ((scope_isolation toolchain crossRun "app" [.empty] _).2 hbuild rfl).trans hresolved⟩

end EnvLayers.Graph
