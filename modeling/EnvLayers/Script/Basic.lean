import EnvLayers.Environment.Basic

/-
Module: EnvLayers.Script.Basic
Purpose: The dialects in which an environment can be applied to a shell, the names of the files that
  hold the scripts, and the text of a variable's value inside a script.
Main exports: Dialect, Dialect.ofOs, Dialect.extension, Dialect.fileName, Dialect.restoreFileName,
  Script.valueText?
-/

namespace EnvLayers

/-- The language of a script: the shell of Unix systems, or batch files. -/
inductive Dialect where
  | sh
  | bat
deriving Repr, DecidableEq, Inhabited

namespace Dialect

/-- The dialect native to an operating system. Where the system is unknown it is the shell. -/
def ofOs (os : Option Os) : Dialect := if os.any Os.isWindows then .bat else .sh

def extension : Dialect → String
  | .sh => "sh"
  | .bat => "bat"

/-- The name of the script that applies the environment of a scope. -/
def fileName (d : Dialect) (start : String) (scope : Scope) : String :=
  start ++ scope.name ++ "env." ++ d.extension

/-- The name of the script that restores what the other one changed. -/
def restoreFileName (d : Dialect) (start : String) (scope : Scope) : String :=
  "deactivate_" ++ d.fileName start scope

end Dialect

namespace Script

/-- What one entry of a variable contributes to its text in a script: an escaped value, nothing for
an empty one, and a reference to the outer value. -/
def entryText (escape : String → String) (reference : String) : Item → Option String
  | .value text => if text = "" then none else some (escape text)
  | .previous => some reference

/-- The text of a variable in a script, or nothing for a variable that is unset. The separators
between the entries are written as they are. -/
def valueText? (escape : String → String) (reference pathSeparator : String) (v : Variable) :
    Option String :=
  if v.isUnset then none
  else
    some ((v.joiner pathSeparator).intercalate (v.items.filterMap (entryText escape reference)))

end Script

end EnvLayers
