import EnvLayers.Script.Bat
import EnvLayers.Script.Sh

/-
Module: EnvLayers.Script.Activate
Purpose: The script of either dialect that applies an environment.
Main exports: Environment.activateScript
-/

namespace EnvLayers

/-- The script of a dialect that applies the environment and writes its undoing to
`deactivatePath`. -/
def Environment.activateScript (env : Environment) (dialect : Dialect) (deactivatePath : String) :
    String :=
  match dialect with
  | .sh => Sh.script env deactivatePath
  | .bat => Bat.script env deactivatePath

end EnvLayers
