import EnvLayers.Command.Basic
import EnvLayers.Graph.Template

/-
Module: EnvLayers.Command.Init
Purpose: The command that starts a new graph file. It never touches a file that is there already.
Main exports: Init.run
-/

namespace EnvLayers.Command.Init

/-- What is said after the file has been written. -/
def message (path : String) : String :=
  Text.Lines.render "\n"
    ["Created " ++ graphFileName ++ " at " ++ Text.Quoted.quote path,
     "",
     "Next steps:",
     "  1. Declare the nodes of your dependency graph",
     "  2. Run 'depenv show --scope build' to preview the build environment",
     "  3. Run 'depenv generate' to write activation scripts"]

/-- The text of the file that is asked for. -/
def content (r : InitRequest) : String := (Template.ofName r.template).text r.root r.requires

/-- Writes the file. -/
def run (h : Host) (r : InitRequest) : Report :=
  let path := Path.join r.directory graphFileName
  if h.files.isPresent path then ⟨"", h.files, .failed (.alreadyThere path)⟩
  else
    match h.files.write path (content r) with
    | .error fault => ⟨"", h.files, .failed (.notWritten fault)⟩
    | .ok f => ⟨message path, f, .done⟩

end EnvLayers.Command.Init
