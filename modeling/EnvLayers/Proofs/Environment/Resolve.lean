import EnvLayers.Environment.Resolve
import EnvLayers.Proofs.Environment.Fold
import Mathlib

/-
Module: EnvLayers.Proofs.Environment.Resolve
Purpose: The environment of a consumer as one sequence of operations, folded for each variable on
  its own. The sequence names every operation of the graph and the profiles once, from the lowest
  priority up; how contributions are listed, dropped and layered does not show in it.
Main exports: Graph.sequence, resolve_eq_sequence, resolve_folds
-/

namespace EnvLayers.Graph

/-- What a package needs at run time, from the lowest priority up: the directories of its layout,
and its own operations on top. -/
def runOps (os : Option Os) (n : Node) : List Op := n.implicitRunEnv os ++ n.runEnv

/-- What a tool gives to a build, from the lowest priority up. Its build environment counts only for
the consumer that requires it as a tool itself. -/
def toolOps (consumer : Node) (os : Option Os) (tool : Node) : List Op :=
  runOps os tool
    ++ if ∃ r ∈ consumer.requirements, r.kind = .buildRequires ∧ r.node = tool.id then tool.buildEnv
       else []

/-- All operations that a consumer's environment is made of, in the order in which they are
applied. -/
def sequence (g : Graph) (consumer : Node) (profiles : List Profile) : Scope → Outcome (List Op)
  | .run => do
    let nodes ← g.runtime consumer
    return nodes.reverse.flatMap (runOps g.settings.os) ++ profileOps profiles .run consumer
  | .build => do
    let tools ← g.tools consumer
    let hosts ← g.hosts consumer
    return hosts.reverse.flatMap (·.buildEnv)
      ++ tools.reverse.flatMap (toolOps consumer g.buildSettings.os)
      ++ profileOps profiles .build consumer

/-! ### Contributions as operations -/

/-- The operations of contributions, from the last one listed up. -/
def layeredOps (contributions : List Contribution) : List Op :=
  contributions.reverse.flatMap (·.ops)

theorem layered_eq_applyAll (contributions : List Contribution) :
    layered contributions = Variables.applyAll [] (layeredOps contributions) := by
  rw [layered, layeredOps, Variables.applyAll, List.foldl_flatMap]
  rfl

@[simp] theorem layeredOps_append (first second : List Contribution) :
    layeredOps (first ++ second) = layeredOps second ++ layeredOps first := by
  simp [layeredOps]

/-- A contribution that is not listed has no operation to miss. -/
@[simp] theorem layeredOps_withOps (contributions : List Contribution) :
    layeredOps (withOps contributions) = layeredOps contributions := by
  induction contributions with
  | nil =>
      rfl
  | cons c rest ih =>
      have hcons : ∀ cs, layeredOps (c :: cs) = layeredOps cs ++ c.ops := fun cs => by
        simp [layeredOps]
      by_cases h : c.ops = []
      · rw [hcons, h, List.append_nil, ← ih]
        simp [withOps, h]
      · rw [hcons, ← ih, ← hcons]
        simp [withOps, h]

theorem layeredOps_flatMap {α : Type} (parts : α → List Contribution) (xs : List α) :
    layeredOps (xs.flatMap parts) = xs.reverse.flatMap fun x => layeredOps (parts x) := by
  induction xs with
  | nil =>
      rfl
  | cons x xs ih =>
      rw [List.flatMap_cons, layeredOps_append, ih, List.reverse_cons, List.flatMap_append,
        List.flatMap_singleton]

theorem layeredOps_runParts (os : Option Os) (n : Node) :
    layeredOps (runParts os n) = runOps os n := by
  simp [layeredOps, runParts, runOps]

theorem isDirectTool_iff {consumer tool : Node} :
    isDirectTool consumer tool
      ↔ ∃ r ∈ consumer.requirements, r.kind = .buildRequires ∧ r.node = tool.id := by
  simp [isDirectTool, Node.requirementsOfKind]

theorem layeredOps_toolParts (consumer : Node) (os : Option Os) (tool : Node) :
    layeredOps (toolParts consumer os tool) = toolOps consumer os tool := by
  rw [toolParts, layeredOps_append, layeredOps_runParts, toolOps]
  congr 1
  simp only [isDirectTool_iff]
  split <;> simp [layeredOps, buildPart]

theorem layeredOps_map_buildPart (hosts : List Node) :
    layeredOps (hosts.map buildPart) = hosts.reverse.flatMap (·.buildEnv) := by
  simp [layeredOps, buildPart, List.flatMap_map, ← List.map_reverse]

/-! ### The sequence -/

/-- The contributions of the graph, with the operations of the profiles on top, are the sequence. -/
theorem sequence_eq (g : Graph) (consumer : Node) (profiles : List Profile) (scope : Scope) :
    g.sequence consumer profiles scope
      = (g.contributions consumer scope).map fun contributions =>
          layeredOps contributions ++ profileOps profiles scope consumer := by
  cases scope with
  | build =>
      cases htools : g.tools consumer with
      | error failure =>
          simp [sequence, contributions, htools, bind, Except.bind, Except.map]
      | ok tools =>
          cases hhosts : g.hosts consumer with
          | error failure =>
              simp [sequence, contributions, htools, hhosts, bind, Except.bind, Except.map]
          | ok hosts =>
              simp [sequence, contributions, htools, hhosts, bind, Except.bind, Except.map,
                layeredOps_flatMap, layeredOps_toolParts, layeredOps_map_buildPart, settingsOf,
                pure, Except.pure]
  | run =>
      cases hnodes : g.runtime consumer with
      | error failure =>
          simp [sequence, contributions, hnodes, bind, Except.bind, Except.map]
      | ok nodes =>
          simp [sequence, contributions, hnodes, bind, Except.bind, Except.map, layeredOps_flatMap,
            layeredOps_runParts, settingsOf, pure, Except.pure]

theorem profileOps_nil (scope : Scope) (consumer : Node) : profileOps [] scope consumer = [] := by
  cases scope <;> rfl

/-- The environment that operations make of no variables. -/
def ofOps (consumer : String) (scope : Scope) (os : Option Os) (ops : List Op) : Environment where
  consumer := consumer
  scope := scope
  os := os
  vars := Variables.applyAll [] ops
  names_nodup := @Variables.nodup_names_applyAll [] List.nodup_nil ops

theorem mem_names_ofOps {consumer name : String} {scope : Scope} {os : Option Os} {ops : List Op} :
    name ∈ (ofOps consumer scope os ops).names ↔ ∃ op ∈ ops, op.name = name := by
  rw [Environment.names, ofOps, Variables.names_applyAll_nil, List.mem_eraseDups, List.mem_map]

/-- The environment of a consumer is what its sequence of operations makes of no variables. -/
theorem resolve_eq_sequence (g : Graph) (consumer : String) (scope : Scope)
    (profiles : List Profile) :
    g.resolve consumer scope profiles = do
      let node ← g.node consumer
      let ops ← g.sequence node profiles scope
      return ofOps consumer scope (g.settingsOf scope).os ops := by
  have hvars : ∀ contributions ops, Variables.applyAll (layered contributions) ops
      = Variables.applyAll [] (layeredOps contributions ++ ops) := by
    intro contributions ops
    rw [layered_eq_applyAll, Variables.applyAll_append]
  unfold resolve
  simp only [sequence_eq, hvars]
  cases g.node consumer with
  | error failure =>
      rfl
  | ok node =>
      simp only [bind, Except.bind]
      cases g.contributions node scope <;> rfl

/-- What a successful resolution consists of. -/
theorem exists_sequence_of_resolve {g : Graph} {consumer : String} {scope : Scope}
    {profiles : List Profile} {env : Environment}
    (h : g.resolve consumer scope profiles = .ok env) :
    ∃ node ops, g.node? consumer = some node ∧ g.sequence node profiles scope = .ok ops
      ∧ env = ofOps consumer scope (g.settingsOf scope).os ops := by
  rw [resolve_eq_sequence] at h
  cases hnode : g.node? consumer with
  | none =>
      simp [node, hnode, bind, Except.bind] at h
  | some node =>
      simp only [Graph.node, hnode, bind, Except.bind] at h
      cases hops : g.sequence node profiles scope with
      | error failure =>
          simp [hops] at h
      | ok ops =>
          simp only [hops, pure, Except.pure, Except.ok.injEq] at h
          exact ⟨node, ops, rfl, hops, h.symm⟩

/-- Resolving is a fold for each variable on its own. The variables are those that the sequence of
operations names, each once and in the order in which they are first named, and the state of each is
what the operations on it make of a variable that nothing has touched. So any order of the
operations that keeps the order of those on one name gives every variable the same state. -/
theorem resolve_folds {g : Graph} {consumer : String} {scope : Scope} {profiles : List Profile}
    {env : Environment} (h : g.resolve consumer scope profiles = .ok env) :
    ∃ node ops, g.node? consumer = some node ∧ g.sequence node profiles scope = .ok ops
      ∧ env.names = (ops.map (·.name)).eraseDups ∧ env.names.Nodup
      ∧ (∀ v ∈ env.vars, env.find? v.name = some v
        ∧ v = (Variable.fresh v.name).applyAll (ops.filter (·.name = v.name)))
      ∧ ∀ ops', (∀ name, ops'.filter (·.name = name) = ops.filter (·.name = name)) →
          ∀ name, (Variables.applyAll [] ops').find name = env.find? name := by
  obtain ⟨node, ops, hnode, hops, rfl⟩ := exists_sequence_of_resolve h
  refine ⟨node, ops, hnode, hops, Variables.names_applyAll_nil ops, Environment.names_nodup _,
    fun v hv => ?_, fun ops' hsame name => ?_⟩
  · have hfind := Variables.find_of_mem (Environment.names_nodup _) hv
    refine ⟨hfind, ?_⟩
    rw [ofOps, Variables.find_applyAll_nil] at hfind
    split at hfind
    · exact (Option.some.inj hfind).symm
    · cases hfind
  · have hon : opsOn name ops' = opsOn name ops := hsame name
    rw [Environment.find?, ofOps, Variables.find_applyAll, Variables.find_applyAll, hon]

/-- A package with a library behind a library, and with a compiler that needs one of them to run. -/
def toolchain : Graph where
  settings := ⟨some .linux⟩
  buildSettings := ⟨some .linux⟩
  nodes := [
    { Node.ofName "app" with
      requirements := [⟨"lib", .requires, true⟩, ⟨"cc", .buildRequires, false⟩] },
    { Node.ofName "lib" with
      buildEnv := [.append "CFLAGS" "-llib"]
      requirements := [⟨"zlib", .requires, true⟩] },
    { Node.ofName "zlib" with
      buildEnv := [.define "CFLAGS" "-lz", .unset "DEBUG"]
      runEnv := [.prepend "TRACE" "zlib"] },
    { Node.ofName "cc" with
      buildEnv := [.define "CC" "cc", .append "CFLAGS" "-O2"]
      runEnv := [.append "TRACE" "cc"]
      folder := some "/opt/cc"
      requirements := [⟨"zlib", .requires, true⟩] }]
  ids_nodup := by decide

/-- The environment in which the package of `toolchain` is built. -/
def toolchainBuild : Environment where
  consumer := "app"
  scope := .build
  os := some .linux
  vars := [
    ⟨"CFLAGS", [.value "-lz", .value "-llib", .value "-O2"], .text " "⟩,
    ⟨"DEBUG", [], .text " "⟩,
    ⟨"TRACE", [.value "zlib", .previous, .value "cc"], .text " "⟩,
    ⟨"PATH", [.value "/opt/cc/bin", .previous], .path⟩,
    ⟨"LD_LIBRARY_PATH", [.value "/opt/cc/lib", .previous], .path⟩,
    ⟨"DYLD_LIBRARY_PATH", [.value "/opt/cc/lib", .previous], .path⟩,
    ⟨"CC", [.value "cc"], .text " "⟩]
  names_nodup := by decide

theorem resolve_toolchain : toolchain.resolve "app" .build [] = .ok toolchainBuild := by
  -- Unfolds by equations. Those of core functions stand at many places of Mathlib, which is
  -- imported whole for them.
  cbv

theorem resolve_folds_toolchain :
    toolchain.resolve "app" .build [] = .ok toolchainBuild
      ∧ ∃ node ops, toolchain.sequence node [] .build = .ok ops
        ∧ toolchainBuild.names = (ops.map (·.name)).eraseDups := by
  obtain ⟨node, ops, _, hops, hnames, _⟩ := resolve_folds resolve_toolchain
  exact ⟨resolve_toolchain, node, ops, hops, hnames⟩

end EnvLayers.Graph
