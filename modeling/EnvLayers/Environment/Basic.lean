import EnvLayers.Os
import EnvLayers.Scope
import EnvLayers.Variable.Basic

/-
Module: EnvLayers.Environment.Basic
Purpose: Collections of variables in the order in which they were first touched, the environment
  that a consumer ends up with, and the operations that rebuild it on top of any outer environment.
Main exports: Variables, Variables.apply, Variables.applyAll, Variables.nodup_names_applyAll,
  Environment, Environment.get?, Environment.toOps
-/

namespace EnvLayers

/-- Variables in the order in which they were first touched. -/
abbrev Variables := List Variable

namespace Variables

/-- The variable of a name. -/
def find (vars : Variables) (name : String) : Option Variable := vars.find? (·.name == name)

/-- Layers an operation onto its variable, which stands last when it was never touched before. -/
def apply (vars : Variables) (op : Op) : Variables :=
  match vars with
  | [] => [(Variable.fresh op.name).apply op]
  | v :: rest => if v.name = op.name then v.apply op :: rest else v :: apply rest op

/-- Layers operations in order. -/
def applyAll (vars : Variables) (ops : List Op) : Variables := ops.foldl apply vars

/-- The names of some variables in order. -/
def names (vars : Variables) : List String := vars.map (·.name)

theorem names_apply (vars : Variables) (op : Op) :
    (vars.apply op).names
      = if op.name ∈ vars.names then vars.names else vars.names ++ [op.name] := by
  induction vars with
  | nil =>
      rfl
  | cons v rest ih =>
      by_cases h : v.name = op.name
      · simp [apply, names, h, Variable.apply]
      · simp only [names] at ih
        by_cases hrest : op.name ∈ rest.map (·.name)
        · simp [apply, names, h, ih, hrest]
        · simp [apply, names, h, Ne.symm h, ih, hrest]

/-- An operation keeps one variable to a name. -/
theorem nodup_names_apply {vars : Variables} (h : vars.names.Nodup) (op : Op) :
    (vars.apply op).names.Nodup := by
  rw [names_apply]
  split
  · exact h
  · next hnew =>
      refine List.nodup_append.mpr ⟨h, by simp, ?_⟩
      rintro x hx y hy rfl
      exact hnew (List.mem_singleton.mp hy ▸ hx)

theorem nodup_names_applyAll {vars : Variables} (h : vars.names.Nodup) (ops : List Op) :
    (vars.applyAll ops).names.Nodup := by
  induction ops generalizing vars with
  | nil =>
      exact h
  | cons op ops ih =>
      exact ih (nodup_names_apply h op)

end Variables

/-- The environment of one consumer in one scope, on the operating system that it will be used on.
Each name has one variable. -/
structure Environment where
  consumer : String
  scope : Scope
  os : Option Os
  vars : Variables
  names_nodup : vars.names.Nodup
deriving Repr, DecidableEq

namespace Environment

/-- The text between two entries of a search path. -/
def pathSeparator (env : Environment) : String := Os.pathSeparatorOf env.os

/-- The names of the variables in order. -/
def names (env : Environment) : List String := env.vars.names

/-- The variable of a name. -/
def find? (env : Environment) (name : String) : Option Variable := env.vars.find name

/-- The text of a variable with the outer value dropped. There is none for a variable that was never
touched or is unset. -/
def get? (env : Environment) (name : String) : Option String :=
  (env.find? name).bind fun v => v.flatten none env.pathSeparator

/-- The text of a variable with `outer` wherever the outer value is kept. -/
def getOver? (env : Environment) (name outer : String) : Option String :=
  (env.find? name).bind fun v => v.flatten (some outer) env.pathSeparator

/-- The values that are not empty as one text, if there are any. -/
def joined? (joiner : String) (values : List String) : Option String :=
  match values.filter (· ≠ "") with
  | [] => none
  | kept => some (joiner.intercalate kept)

/-- The same operation with the separator of a variable declared. The space that joins values anyway
is not declared. -/
def decorate (separator : Separator) (op : Op) : Op :=
  match separator with
  | .path => op.asPath
  | .text joiner => if joiner = " " then op else op.withSeparator joiner

/-- The fewest operations that rebuild a variable: an unset, a define, or a prepend of what stands
before the outer value and an append of what stands after it. -/
def rebuildOps (pathSeparator : String) (v : Variable) : List Op :=
  let joined := joined? (v.joiner pathSeparator)
  let (before, after) := v.sides
  if v.isUnset then [.unset v.name]
  else if v.keepsOuter then
    (joined before).toList.map (fun text => decorate v.separator (.prepend v.name text))
      ++ (joined after).toList.map fun text => decorate v.separator (.append v.name text)
  else [decorate v.separator (.define v.name ((joined before).getD ""))]

/-- Operations that rebuild the environment on top of any outer one, variable after variable. -/
def toOps (env : Environment) : List Op := env.vars.flatMap (rebuildOps env.pathSeparator)

end Environment

end EnvLayers
