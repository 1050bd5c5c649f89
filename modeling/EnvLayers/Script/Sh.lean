import EnvLayers.Script.Basic
import EnvLayers.Text.Lines

/-
Module: EnvLayers.Script.Sh
Purpose: The script that applies an environment to a shell of a Unix system. Before it changes a
  variable it writes the commands that restore it to the deactivation file.
Main exports: Sh.escape, Sh.captureLines, Sh.assignmentLines, Sh.script
-/

namespace EnvLayers.Sh

/-- The characters that have a meaning between double quotes. -/
def isSpecial (c : Char) : Bool := c == '"' || c == '\\' || c == '$' || c == '\x60'

/-- One character between double quotes. -/
def escapeChar (c : Char) : List Char := if isSpecial c then ['\\', c] else [c]

/-- A text as it stands between double quotes. -/
def escape (s : String) : String := String.ofList (s.toList.flatMap escapeChar)

/-- The reference to a variable's outer value. -/
def reference (name : String) : String := "$\x7b" ++ name ++ "\x7d"

/-- The lines that say what the script is for and start the deactivation file. -/
def headerLines (env : Environment) (file : String) : List String :=
  ["# " ++ env.scope.name ++ " environment for " ++ env.consumer,
   "echo \"echo Restoring environment\" > \"" ++ file ++ "\""]

/-- The lines that write to the deactivation file how each variable is restored. -/
def captureLines (names : List String) (file : String) : List String :=
  if names.isEmpty then []
  else
    ["for v in " ++ " ".intercalate names,
     "do",
     "    is_defined=\"true\"",
     "    value=$(printenv $v) || is_defined=\"\" || true",
     "    if [ -n \"$value\" ] || [ -n \"$is_defined\" ]",
     "    then",
     "        echo export \"$v='$value'\" >> \"" ++ file ++ "\"",
     "    else",
     "        echo unset $v >> \"" ++ file ++ "\"",
     "    fi",
     "done"]

/-- The line that gives a variable its value or removes it. -/
def assignmentLine (pathSeparator : String) (v : Variable) : String :=
  match Script.valueText? escape (reference v.name) pathSeparator v with
  | some text => "export " ++ v.name ++ "=\"" ++ text ++ "\""
  | none => "unset " ++ v.name

/-- The lines that change the variables, one each in order. -/
def assignmentLines (env : Environment) : List String :=
  env.vars.map (assignmentLine env.pathSeparator)

/-- The script that applies the environment and writes its undoing to `deactivatePath`. -/
def script (env : Environment) (deactivatePath : String) : String :=
  let file := escape deactivatePath
  Text.Lines.render "\n"
    (headerLines env file ++ captureLines env.names file ++ [""] ++ assignmentLines env)

end EnvLayers.Sh
