import EnvLayers.Environment.Basic
import EnvLayers.Graph.Closure
import EnvLayers.Profile.Basic

/-
Module: EnvLayers.Environment.Resolve
Purpose: The environment of a consumer from its dependency graph and from profiles. Contributions
  are listed from the highest priority down and layered in reverse, so that what is closer to the
  consumer lands on top of what is deeper; the profiles come last.
Main exports: Origin, Contribution, Graph.contributions, Graph.resolve
-/

namespace EnvLayers

/-- Which part of a package a contribution is. -/
inductive Origin where
  | buildEnv
  | runEnv
  | implicit
deriving Repr, DecidableEq, Inhabited

/-- The operations of one part of one package. -/
structure Contribution where
  node : String
  origin : Origin
  ops : List Op
deriving Repr, DecidableEq, Inhabited

namespace Graph

/-- The requirements that lead from host packages on: visible ones for the host. -/
def isHostEdge (r : Requirement) : Bool := r.kind == .requires && r.visible

/-- The requirements that lead from tools on: all that a tool needs to run or was built with,
visible or not. -/
def isToolEdge (r : Requirement) : Bool := r.kind == .requires || r.kind == .buildRequires

/-- What a package gives to those that build with it. -/
def buildPart (n : Node) : Contribution := ⟨n.id, .buildEnv, n.buildEnv⟩

/-- What a package needs at run time, declared operations above those that follow from its layout.
-/
def runParts (os : Option Os) (n : Node) : List Contribution :=
  [⟨n.id, .runEnv, n.runEnv⟩, ⟨n.id, .implicit, n.implicitRunEnv os⟩]

/-- The tools of a consumer in priority order. -/
def tools (g : Graph) (consumer : Node) : Outcome (List Node) :=
  g.closure isToolEdge (consumer.requirementsOfKind .buildRequires)

/-- The host packages that a consumer is built against, in priority order. -/
def hosts (g : Graph) (consumer : Node) : Outcome (List Node) :=
  g.closure isHostEdge (consumer.requirementsOfKind .requires)

/-- The host packages that a consumer runs and is tested with, in priority order. -/
def runtime (g : Graph) (consumer : Node) : Outcome (List Node) :=
  g.closure isHostEdge
    (consumer.requirementsOfKind .requires ++ consumer.requirementsOfKind .testRequires)

/-- The consumer requires the package as a tool itself. -/
def isDirectTool (consumer tool : Node) : Bool :=
  (consumer.requirementsOfKind .buildRequires).any (·.node == tool.id)

/-- What a tool contributes: its build environment only to the consumer that requires it itself. -/
def toolParts (consumer : Node) (os : Option Os) (tool : Node) : List Contribution :=
  (if isDirectTool consumer tool then [buildPart tool] else []) ++ runParts os tool

/-- The settings of the context in which the environment of a scope is used. -/
def settingsOf (g : Graph) : Scope → Settings
  | .build => g.buildSettings
  | .run => g.settings

/-- The contributions that hold an operation. The others are not listed. -/
def withOps (contributions : List Contribution) : List Contribution :=
  contributions.filter (!·.ops.isEmpty)

/-- Everything that the graph contributes to a consumer, from the highest priority down. To a build,
the tools come before the host packages. -/
def contributions (g : Graph) (consumer : Node) (scope : Scope) : Outcome (List Contribution) :=
  let os := (g.settingsOf scope).os
  match scope with
  | .build => do
    let tools ← g.tools consumer
    let hosts ← g.hosts consumer
    return withOps (tools.flatMap (toolParts consumer os) ++ hosts.map buildPart)
  | .run => do
    let nodes ← g.runtime consumer
    return withOps (nodes.flatMap (runParts os))

/-- The operations of the profiles for a consumer. -/
def profileOps (profiles : List Profile) (scope : Scope) (consumer : Node) : List Op :=
  ((Profile.compose profiles).environment scope).select consumer.name

/-- The variables that contributions make, layered from the last one listed up. -/
def layered (contributions : List Contribution) : Variables :=
  contributions.reverse.foldl (fun vars c => vars.applyAll c.ops) []

theorem nodup_names_layered (contributions : List Contribution) :
    (layered contributions).names.Nodup := by
  unfold layered
  induction contributions with
  | nil =>
      exact List.nodup_nil
  | cons c rest ih =>
      rw [List.reverse_cons, List.foldl_append]
      exact Variables.nodup_names_applyAll ih c.ops

/-- The environment of a consumer: the contributions of the graph layered from the lowest priority
up, and the operations of the profiles on top. -/
def resolve (g : Graph) (consumer : String) (scope : Scope) (profiles : List Profile) :
    Outcome Environment := do
  let node ← g.node consumer
  let contributions ← g.contributions node scope
  return {
    consumer := consumer
    scope := scope
    os := (g.settingsOf scope).os
    vars := (layered contributions).applyAll (profileOps profiles scope node)
    names_nodup := Variables.nodup_names_applyAll (nodup_names_layered contributions) _ }

end Graph

end EnvLayers
