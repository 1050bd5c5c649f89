import EnvLayers.Failure

/-
Module: EnvLayers.Scope
Purpose: The two environments of a consumer: the one it is built in and the one it runs in.
Main exports: Scope, Scope.all, Scope.name, Scope.parse
-/

namespace EnvLayers

/-- Which environment of the consumer is meant. -/
inductive Scope where
  | build
  | run
deriving Repr, DecidableEq, Inhabited

namespace Scope

/-- Both scopes in the order in which they are generated. -/
def all : List Scope := [.build, .run]

def name : Scope → String
  | .build => "build"
  | .run => "run"

/-- The scope of a name, matched exactly. -/
def parse (text : String) : Outcome Scope :=
  if text = "build" then .ok .build
  else if text = "run" then .ok .run
  else .error (.invalid (.scope text))

end Scope

end EnvLayers
