import EnvLayers.Command.Basic
import EnvLayers.Environment.Outline
import EnvLayers.Environment.Resolve
import EnvLayers.Environment.Table
import EnvLayers.Json.Write
import EnvLayers.Yaml.Write

/-
Module: EnvLayers.Command.Display
Purpose: The command that shows the environment of a consumer, as a table or as a document.
Main exports: Display.formatted, Display.run
-/

namespace EnvLayers.Command.Display

/-- The environment in the format of a name. -/
def formatted (paint : Text.Style → String → String) (env : Environment) (format : String) :
    Attempt String :=
  if format = "yaml" then .ok (Yaml.write env.outline)
  else if format = "json" then .ok (Json.write env.outline ++ "\n")
  else if format = "table" then .ok (env.table paint)
  else .error (.unknownFormat format)

/-- What is shown. -/
def output (h : Host) (r : DisplayRequest) : Attempt String := do
  let (g, profiles) ← attempt (loadSources h r.sources)
  let consumer ← chooseConsumer g r.consumer
  let env ← attempt (g.resolve consumer r.scope profiles)
  formatted (paint h) env r.format

/-- Shows the environment. -/
def run (h : Host) (r : DisplayRequest) : Report :=
  match output h r with
  | .ok text => ⟨text, h.files, .done⟩
  | .error complaint => ⟨"", h.files, .failed complaint⟩

end EnvLayers.Command.Display
