import EnvLayers.Op.Basic
import EnvLayers.Os
import EnvLayers.Path

/-
Module: EnvLayers.Graph.Node
Purpose: The packages of a dependency graph: what a package requires, the environment it declares
  for building with it and for running it, and the environment that follows from its layout on disk.
Main exports: Requirement, Layout, Node, Node.requirementsOfKind, Node.implicitRunEnv
-/

namespace EnvLayers

/-- What a requirement is for: a library of the host, a tool of the build, or a need of the tests.
-/
inductive RequirementKind where
  | requires
  | buildRequires
  | testRequires
deriving Repr, DecidableEq, Inhabited

/-- A declared edge from a package to a provider, by the provider's id. A visible provider is
re-exported to the package's own consumers. -/
structure Requirement where
  node : String
  kind : RequirementKind
  visible : Bool
deriving Repr, DecidableEq, Inhabited

/-- The directories of a package, relative to its folder. -/
structure Layout where
  binDirs : List String
  libDirs : List String
  frameworkDirs : List String
deriving Repr, DecidableEq

/-- The layout of a package that declares none. -/
def Layout.default : Layout := ⟨["bin"], ["lib"], []⟩

instance : Inhabited Layout := ⟨Layout.default⟩

/-- A package in the graph. The id is its key there, the name is what profiles match, and the
requirements of every kind stand in declaration order. -/
structure Node where
  id : String
  name : String
  buildEnv : List Op
  runEnv : List Op
  folder : Option String
  layout : Layout
  requirements : List Requirement
deriving Repr, DecidableEq, Inhabited

namespace Node

/-- A package that declares nothing. Its id is its name. -/
def ofName (name : String) : Node := ⟨name, name, [], [], none, .default, []⟩

/-- The requirements of one kind, in declaration order. -/
def requirementsOfKind (n : Node) (kind : RequirementKind) : List Requirement :=
  n.requirements.filter (·.kind == kind)

/-- The ids behind the requirements that are followed, in declaration order. -/
def targets (n : Node) (follow : Requirement → Bool) : List String :=
  (n.requirements.filter follow).map (·.node)

/-- The operations that put directories of `folder` at the head of a search path in their declared
order: the last directory is put there first. -/
def prependDirs (folder name : String) (dirs : List String) : List Op :=
  dirs.reverse.map fun dir => (Op.prepend name (Path.join folder dir)).asPath

/-- The variables through which a loader finds libraries and frameworks, with the directories that
each of them lists. -/
def loaderDirs (layout : Layout) : List (String × List String) :=
  [("LD_LIBRARY_PATH", layout.libDirs), ("DYLD_LIBRARY_PATH", layout.libDirs),
   ("DYLD_FRAMEWORK_PATH", layout.frameworkDirs)]

/-- The search paths that a layout reaches on an operating system. Only where the system is known
and is no Windows are there any besides the one for programs. -/
def searchedDirs (layout : Layout) (os : Option Os) : List (String × List String) :=
  ("PATH", layout.binDirs) :: (if os.any (!·.isWindows) then loaderDirs layout else [])

/-- The environment that follows from the layout of the package. A package without a folder
contributes nothing. -/
def implicitRunEnv (n : Node) (os : Option Os) : List Op :=
  match n.folder with
  | none => []
  | some folder =>
    (searchedDirs n.layout os).flatMap fun (name, dirs) => prependDirs folder name dirs

end Node

end EnvLayers
