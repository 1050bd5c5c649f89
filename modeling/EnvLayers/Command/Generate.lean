import EnvLayers.Command.Basic
import EnvLayers.Environment.Resolve
import EnvLayers.Script.Save
import EnvLayers.Text.Lines

/-
Module: EnvLayers.Command.Generate
Purpose: The command that writes the scripts of a consumer. The scopes are handled one after the
  other, and what was written for one stays when the next one fails.
Main exports: Generate.writeScopes, Generate.run
-/

namespace EnvLayers.Command.Generate

/-- The line that tells of a script. -/
def line (paint : Text.Style → String → String) (path : String) : String :=
  paint .green "Wrote" ++ " " ++ path ++ "\n"

/-- Resolves and writes scope after scope, up to the first that fails. `output` is what has been
said before. -/
def writeScopes (paint : Text.Style → String → String) (resolve : Scope → Outcome Environment)
    (directory start : String) (output : String) (f : Files) : List Scope → Report
  | [] => ⟨output, f, .done⟩
  | scope :: rest =>
    match resolve scope with
    | .error cause => ⟨output, f, .failed (.failure cause)⟩
    | .ok env =>
      match env.save f directory start with
      | .error cause => ⟨output, f, .failed (.failure cause)⟩
      | .ok (f, path) =>
        writeScopes paint resolve directory start (output ++ line paint path) f rest

/-- The graph, the profiles and the consumer that are asked for. -/
def prepare (h : Host) (r : GenerateRequest) : Attempt (Graph × List Profile × String) := do
  let (g, profiles) ← attempt (loadSources h r.sources)
  let consumer ← chooseConsumer g r.consumer
  return (g, profiles, consumer)

/-- The scopes that scripts are wanted for. -/
def scopes (r : GenerateRequest) : List Scope := r.scope.elim Scope.all fun scope => [scope]

/-- Writes the scripts. -/
def run (h : Host) (r : GenerateRequest) : Report :=
  match prepare h r with
  | .error complaint => ⟨"", h.files, .failed complaint⟩
  | .ok (g, profiles, consumer) =>
    writeScopes (paint h) (fun scope => g.resolve consumer scope profiles) r.directory r.start ""
      h.files (scopes r)

end EnvLayers.Command.Generate
