import EnvLayers.Command.Display
import EnvLayers.Command.Generate
import EnvLayers.Command.Init

/-
Module: EnvLayers.Command.Run
Purpose: The program as a function of its arguments and of what it finds around it.
Main exports: Command.run
-/

namespace EnvLayers.Command

/-- The name and the version of the program. -/
def versionText : String := "depenv 0.1.0\n"

/-- Does what is asked for. -/
def Request.run (h : Host) : Request → Report
  | .init r => Init.run h r
  | .display r => Display.run h r
  | .generate r => Generate.run h r

/-- Runs the program with some arguments. -/
def run (h : Host) (args : List String) : Report :=
  match Request.read h.setting? args with
  | .ok request => request.run h
  | .error .usage => ⟨"", h.files, .usage⟩
  | .error .help => ⟨"", h.files, .help⟩
  | .error .version => ⟨versionText, h.files, .done⟩

end EnvLayers.Command
