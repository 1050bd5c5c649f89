import EnvLayers.Files.View
import EnvLayers.Graph.Read

/-
Module: EnvLayers.Graph.Load
Purpose: Loading a graph file. The folders of packages are given relative to the directory of the
  file.
Main exports: Node.rebase, Graph.rebase, Graph.load
-/

namespace EnvLayers

/-- The same package with its folder seen from a directory. -/
def Node.rebase (base : String) (n : Node) : Node :=
  { n with folder := n.folder.map (Path.join base) }

namespace Graph

/-- The same graph as one that a file holds: folders are seen from the directory of the file. -/
def rebase (g : Graph) (path : String) : Graph where
  root := g.root
  settings := g.settings
  buildSettings := g.buildSettings
  nodes :=
    match Path.parent? path with
    | some base => g.nodes.map (Node.rebase base)
    | none => g.nodes
  source := some path
  ids_nodup := by
    split
    · simpa [Node.rebase, Function.comp_def] using g.ids_nodup
    · exact g.ids_nodup

/-- The graph that the file at a path holds. -/
def load (files : FileView) (path : String) : Outcome Graph := do
  match files.readText path with
  | .error _ => throw (.readFailed path)
  | .ok text => return (← ofYaml text).rebase path

end Graph

end EnvLayers
