import EnvLayers.Op.Basic
import EnvLayers.Profile.Pattern.Fit
import EnvLayers.Scope

/-
Module: EnvLayers.Profile.Basic
Purpose: Profiles: operations for each scope, grouped by the pattern of the packages they apply to,
  and the layering of one profile on another.
Main exports: OpGroups, OpGroups.push, OpGroups.update, OpGroups.select, Profile, Profile.update,
  Profile.compose
-/

namespace EnvLayers

/-- Operations grouped by package pattern. A group stands where its pattern first appeared, and the
group without a pattern applies to every package. -/
structure OpGroups where
  groups : List (Option String × List Op)
deriving Repr, DecidableEq

namespace OpGroups

def empty : OpGroups := ⟨[]⟩

instance : Inhabited OpGroups := ⟨empty⟩

/-- Adds operations at the end of a pattern's group, which is the last one when it is new. -/
def extendGroup (pattern : Option String) (ops : List Op) :
    List (Option String × List Op) → List (Option String × List Op)
  | [] => [(pattern, ops)]
  | (key, old) :: rest =>
    if key = pattern then (key, old ++ ops) :: rest
    else (key, old) :: extendGroup pattern ops rest

/-- Records one operation under a pattern. -/
def push (g : OpGroups) (pattern : Option String) (op : Op) : OpGroups :=
  ⟨extendGroup pattern [op] g.groups⟩

/-- Layers other groups on top: within a pattern theirs come later. -/
def update (g other : OpGroups) : OpGroups :=
  ⟨other.groups.foldl (fun groups entry => extendGroup entry.1 entry.2 groups) g.groups⟩

/-- The group of a pattern applies to a reference. -/
def applies (holds : String → String → Bool) (reference : String) : Option String → Bool
  | none => true
  | some pattern => holds pattern reference

/-- The operations of the groups that apply to a reference, group after group. -/
def selectBy (holds : String → String → Bool) (g : OpGroups) (reference : String) : List Op :=
  (g.groups.filter fun entry => applies holds reference entry.1).flatMap (·.2)

/-- The operations that apply to the package of a reference. -/
def select (g : OpGroups) (reference : String) : List Op := g.selectBy Pattern.applies reference

/-- No group holds an operation. -/
def isEmpty (g : OpGroups) : Bool := g.groups.all (·.2.isEmpty)

end OpGroups

/-- A profile: the includes that have not been merged, the operations of each scope, and the files
that contributed, includes first. -/
structure Profile where
  includes : List String
  buildEnv : OpGroups
  runEnv : OpGroups
  sourceFiles : List String
deriving Repr, DecidableEq

namespace Profile

def empty : Profile := ⟨[], .empty, .empty, []⟩

instance : Inhabited Profile := ⟨empty⟩

/-- The operations of a scope. -/
def environment (p : Profile) : Scope → OpGroups
  | .build => p.buildEnv
  | .run => p.runEnv

/-- Layers another profile on top. -/
def update (p other : Profile) : Profile where
  includes := p.includes ++ other.includes
  buildEnv := p.buildEnv.update other.buildEnv
  runEnv := p.runEnv.update other.runEnv
  sourceFiles := p.sourceFiles ++ other.sourceFiles

/-- Profiles layered in order, later ones on top. -/
def compose (profiles : List Profile) : Profile := profiles.foldl update empty

end Profile

end EnvLayers
