import EnvLayers.Files.Basic
import EnvLayers.Script.Activate

/-
Module: EnvLayers.Script.Save
Purpose: Writing the script of an environment into a directory, in the dialect native to the
  operating system of the environment.
Main exports: Environment.save
-/

namespace EnvLayers

namespace Environment

/-- The path of the script that applies the environment. -/
def scriptPath (env : Environment) (dir start : String) : String :=
  Path.join dir ((Dialect.ofOs env.os).fileName start env.scope)

/-- The path of the script that undoes it. -/
def restorePath (env : Environment) (dir start : String) : String :=
  Path.join dir ((Dialect.ofOs env.os).restoreFileName start env.scope)

/-- The script of the environment as it is written into a directory. -/
def scriptText (env : Environment) (dir start : String) : String :=
  env.activateScript (Dialect.ofOs env.os) (env.restorePath dir start)

/-- Writes the script into a directory, which is made when it is missing. A script of the Unix shell
can be run. -/
def writeScript (env : Environment) (f : Files) (dir start : String) : Access Files := do
  let path := env.scriptPath dir start
  let f ← f.createDirectories dir
  let f ← f.write path (env.scriptText dir start)
  match Dialect.ofOs env.os with
  | .sh => f.makeExecutable path
  | .bat => return f

/-- Writes the script into a directory. The result is what the files are then, and the path of the
script. -/
def save (env : Environment) (f : Files) (dir start : String) : Outcome (Files × String) :=
  match env.writeScript f dir start with
  | .ok f => .ok (f, env.scriptPath dir start)
  | .error fault => .error (.io fault)

end Environment

end EnvLayers
