import EnvLayers.Environment.Basic
import EnvLayers.Text.Lines
import EnvLayers.Text.Style

/-
Module: EnvLayers.Environment.Table
Purpose: The table that shows an environment to a reader, with the name of a variable after a dollar
  sign where its outer value is kept.
Main exports: Environment.table
-/

namespace EnvLayers.Environment

open Text

/-- What the table calls a scope. -/
def scopeTitle : Scope → String
  | .build => "Build"
  | .run => "Run"

/-- The line above the table. -/
def title (env : Environment) : String :=
  scopeTitle env.scope ++ " environment of " ++ env.consumer
    ++ " (" ++ env.os.elim "any os" Os.name ++ "):"

/-- The line of a variable. -/
def tableLine (env : Environment) (paint : Style → String → String) (v : Variable) : String :=
  "  " ++ paint .cyan v.name
    ++ match env.getOver? v.name ("$" ++ v.name) with
      | some text =>
        " = " ++ paint .green text ++ paint .yellow (if v.isPath then " [path]" else "")
      | none => " " ++ paint .dimmed "(unset)"

/-- The lines of the variables, or the line that says that there are none. -/
def tableBody (env : Environment) (paint : Style → String → String) : List String :=
  if env.vars.isEmpty then ["  " ++ paint .dimmed "(no variables)"]
  else env.vars.map (env.tableLine paint)

/-- The table of an environment. -/
def table (env : Environment) (paint : Style → String → String) : String :=
  Lines.render "\n"
    ([paint .bold env.title, ""] ++ env.tableBody paint
      ++ ["", "Total: " ++ toString env.vars.length ++ " variable(s)"])

end EnvLayers.Environment
