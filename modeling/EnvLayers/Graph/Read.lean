import EnvLayers.Graph.Basic
import EnvLayers.Op.Codec
import EnvLayers.Yaml.Read

/-
Module: EnvLayers.Graph.Read
Purpose: Graph files: which records and fields they consist of, and the graph that one declares.
Main exports: DeclaredNode, DeclaredGraph, DeclaredGraph.decode, Graph.ofDeclared, Graph.ofYaml
-/

namespace EnvLayers

/-- A requirement as it is declared: an id, or an id with its visibility. -/
structure DeclaredRequirement where
  node : String
  visible : Option Bool
deriving Repr, DecidableEq, Inhabited

namespace DeclaredRequirement

/-- The declaration, if it is an id or a mapping whose fields fit. -/
def decode? : Datum → Option DeclaredRequirement
  | .text node => some ⟨node, none⟩
  | .map entries => do
    let fields ← Datum.namedFields ["node", "visible"] entries
    let node ← Datum.requiredText fields "node"
    let visible ← Datum.flag fields "visible" true
    return ⟨node, some visible⟩
  | _ => none

/-- Reads a declaration. A tag anywhere in it is refused. -/
def decode (d : Datum) : Decoded DeclaredRequirement :=
  if d.hasTag then .error .taggedAlternative
  else
    match decode? d with
    | some decl => .ok decl
    | none => .error (.noAlternative "RequirementDecl")

/-- The requirement of a kind. Where nothing is declared, only a host requirement is visible. -/
def toRequirement (kind : RequirementKind) (decl : DeclaredRequirement) : Requirement :=
  ⟨decl.node, kind, decl.visible.getD (kind == .requires)⟩

end DeclaredRequirement

/-- A package as it is declared, with its requirements apart by kind. -/
structure DeclaredNode where
  name : Option String
  id : Option String
  requires : List DeclaredRequirement
  buildRequires : List DeclaredRequirement
  testRequires : List DeclaredRequirement
  buildEnv : List Op
  runEnv : List Op
  folder : Option String
  layout : Layout
deriving Repr, DecidableEq, Inhabited

namespace Layout

def fieldNames : List String := ["bindirs", "libdirs", "frameworkdirs"]

def set (layout : Layout) (field : String) (d : Datum) : Decoded Layout := do
  let dirs ← d.readList Datum.readText
  if field = "bindirs" then return { layout with binDirs := dirs }
  else if field = "libdirs" then return { layout with libDirs := dirs }
  else return { layout with frameworkDirs := dirs }

/-- Reads a layout. Directories that are not given are those of the layout that none is declared
for. -/
def decode (d : Datum) : Decoded Layout :=
  d.readRecord "CppInfo" fieldNames set .default

end Layout

namespace DeclaredNode

def empty : DeclaredNode := ⟨none, none, [], [], [], [], [], none, .default⟩

def fieldNames : List String :=
  ["name", "id", "requires", "build_requires", "test_requires", "buildenv", "runenv",
   "package_folder", "cpp_info"]

def set (decl : DeclaredNode) (field : String) (d : Datum) : Decoded DeclaredNode := do
  let readRequirements (d : Datum) := d.readList DeclaredRequirement.decode
  if field = "name" then return { decl with name := some (← d.readText) }
  else if field = "id" then return { decl with id := ← d.readOptional Datum.readText }
  else if field = "requires" then return { decl with requires := ← readRequirements d }
  else if field = "build_requires" then return { decl with buildRequires := ← readRequirements d }
  else if field = "test_requires" then return { decl with testRequires := ← readRequirements d }
  else if field = "buildenv" then return { decl with buildEnv := ← decodeOps d }
  else if field = "runenv" then return { decl with runEnv := ← decodeOps d }
  else if field = "package_folder" then
    return { decl with folder := ← d.readOptional Datum.readPath }
  else return { decl with layout := ← Layout.decode d }

/-- The requirements kind after kind. -/
def requirements (decl : DeclaredNode) : List Requirement :=
  decl.requires.map (·.toRequirement .requires)
    ++ decl.buildRequires.map (·.toRequirement .buildRequires)
    ++ decl.testRequires.map (·.toRequirement .testRequires)

/-- The package of a declaration that has a name. Its id is the name unless another is declared. -/
def toNode (decl : DeclaredNode) (name : String) : Node :=
  ⟨decl.id.getD name, name, decl.buildEnv, decl.runEnv, decl.folder, decl.layout, decl.requirements⟩

/-- Reads a package, which has to have a name. -/
def decode (d : Datum) : Decoded Node := do
  let decl ← d.readRecord "NodeDecl" fieldNames set empty
  match decl.name with
  | some name => return decl.toNode name
  | none => throw (.missingField "name")

end DeclaredNode

/-- The contents of a graph file. -/
structure DeclaredGraph where
  root : Option String
  settings : Settings
  buildSettings : Settings
  nodes : List Node
deriving Repr, DecidableEq, Inhabited

namespace Settings

def fieldNames : List String := ["os"]

/-- There is one field, and it is all that settings consist of. -/
def set (_ : Settings) (_ : String) (d : Datum) : Decoded Settings := do
  return ⟨(← d.readOptional Datum.readText).map Os.ofName⟩

def decode (d : Datum) : Decoded Settings := d.readRecord "Settings" fieldNames set ⟨none⟩

end Settings

namespace DeclaredGraph

/-- The version of graph files that is known. -/
def version : String := "depenv/v0"

/-- A version by name. -/
def checkVersion (name : String) : Decoded Unit :=
  if name = version then .ok () else .error (.unknownVariant name [version])

/-- Reads the version of a graph file: its name, or its name as a tag on nothing. -/
def decodeVersion : Datum → Decoded Unit
  | .text name => checkVersion name
  | .tagged tag content => do
    checkVersion (Datum.tagName tag)
    match content with
    | .null => return ()
    | other => throw (.wrongKind other "unit")
  | other => .error (.wrongKind other "a Value::Tagged enum")

def empty : DeclaredGraph := ⟨none, ⟨none⟩, ⟨none⟩, []⟩

def fieldNames : List String := ["api", "root", "settings", "settings_build", "nodes"]

def set (decl : DeclaredGraph) (field : String) (d : Datum) : Decoded DeclaredGraph := do
  if field = "api" then
    decodeVersion d
    return decl
  else if field = "root" then return { decl with root := ← d.readOptional Datum.readText }
  else if field = "settings" then return { decl with settings := ← Settings.decode d }
  else if field = "settings_build" then return { decl with buildSettings := ← Settings.decode d }
  else return { decl with nodes := ← d.readList DeclaredNode.decode }

/-- Reads the contents of a graph file. The version is looked at before everything else. -/
def decode (d : Datum) : Decoded DeclaredGraph := do
  d.readRecord "ApiVersionMapping" ["api"] (fun _ _ d => decodeVersion d) ()
  d.readRecord "GraphFile" fieldNames set empty

end DeclaredGraph

namespace Graph

/-- The graph of some contents: ids are distinct, and every reference and name is in order. -/
def ofDeclared (decl : DeclaredGraph) : Outcome Graph := do
  let empty : Graph :=
    { root := decl.root, settings := decl.settings, buildSettings := decl.buildSettings }
  let g ← empty.addNodes decl.nodes
  g.validate
  return g

/-- The contents that a text declares. -/
def readDeclared (text : String) : Except DocumentFault DeclaredGraph := do
  let d ← Yaml.read text
  match DeclaredGraph.decode d with
  | .ok decl => return decl
  | .error fault => throw (.structural fault)

/-- The graph that a text declares. -/
def ofYaml (text : String) : Outcome Graph :=
  match readDeclared text with
  | .ok decl => ofDeclared decl
  | .error fault => .error (.invalidDocument fault)

end Graph

end EnvLayers
