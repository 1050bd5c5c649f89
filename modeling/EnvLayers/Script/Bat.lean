import EnvLayers.Script.Basic
import EnvLayers.Text.Lines

/-
Module: EnvLayers.Script.Bat
Purpose: The batch file that applies an environment on Windows. Before it changes a variable it
  writes the commands that restore it to the deactivation file.
Main exports: Bat.escape, Bat.captureLines, Bat.assignmentLines, Bat.script
-/

namespace EnvLayers.Bat

/-- One character where percent signs are expanded. -/
def escapeChar (c : Char) : List Char := if c == '%' then ['%', '%'] else [c]

/-- A text as it stands where percent signs are expanded. -/
def escape (s : String) : String := String.ofList (s.toList.flatMap escapeChar)

/-- The reference to a variable's outer value. -/
def reference (name : String) : String := "%" ++ name ++ "%"

/-- The lines that say what the script is for and start the deactivation file. -/
def headerLines (env : Environment) (file : String) : List String :=
  ["@echo off",
   "rem " ++ env.scope.name ++ " environment for " ++ env.consumer,
   "chcp 65001 > nul",
   "setlocal",
   "echo @echo off > \"" ++ file ++ "\"",
   "echo echo Restoring environment >> \"" ++ file ++ "\""]

/-- The lines that write to the deactivation file how each variable is restored. -/
def captureLines (names : List String) (file : String) : List String :=
  if names.isEmpty then []
  else
    ["for %%v in (" ++ " ".intercalate names ++ ") do (",
     "    set foundenvvar=",
     "    for /f \"delims== tokens=1,2\" %%a in ('set') do (",
     "        if /I \"%%a\" == \"%%v\" (",
     "            echo set \"%%a=%%b\">> \"" ++ file ++ "\"",
     "            set foundenvvar=1",
     "        )",
     "    )",
     "    if not defined foundenvvar (",
     "        echo set %%v=>> \"" ++ file ++ "\"",
     "    )",
     ")"]

/-- The line that gives a variable its value or removes it. -/
def assignmentLine (pathSeparator : String) (v : Variable) : String :=
  match Script.valueText? escape (reference v.name) pathSeparator v with
  | some text => "set \"" ++ v.name ++ "=" ++ text ++ "\""
  | none => "set " ++ v.name ++ "="

/-- The lines that change the variables, one each in order. -/
def assignmentLines (env : Environment) : List String :=
  env.vars.map (assignmentLine env.pathSeparator)

/-- The script that applies the environment and writes its undoing to `deactivatePath`. -/
def script (env : Environment) (deactivatePath : String) : String :=
  Text.Lines.render "\r\n"
    (headerLines env deactivatePath ++ captureLines env.names deactivatePath ++ ["endlocal", ""]
      ++ assignmentLines env)

end EnvLayers.Bat
