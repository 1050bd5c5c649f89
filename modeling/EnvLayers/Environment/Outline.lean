import EnvLayers.Environment.Basic
import EnvLayers.Op.Codec

/-
Module: EnvLayers.Environment.Outline
Purpose: The document that describes an environment: whose it is, what its variables are worth when
  there is no outer environment, and the operations that rebuild it.
Main exports: Environment.outline
-/

namespace EnvLayers.Environment

/-- The record of a variable. A variable that is unset has no value. -/
def variableOutline (env : Environment) (v : Variable) : Outline :=
  let value := (env.get? v.name).elim .absent .text
  .record [("name", .text v.name), ("value", value), ("path", .flag v.isPath)]

/-- The record of an environment. An operating system that is unknown is left out. -/
def outline (env : Environment) : Outline :=
  .record
    ([("consumer", .text env.consumer), ("scope", .text env.scope.name)]
      ++ env.os.toList.map (fun os => ("os", .text os.name))
      ++ [("variables", .list (env.vars.map env.variableOutline)),
          ("operations", outlineOps env.toOps)])

end EnvLayers.Environment
