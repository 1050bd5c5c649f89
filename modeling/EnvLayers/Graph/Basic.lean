import EnvLayers.Failure
import EnvLayers.Graph.Node
import EnvLayers.Text.Case

/-
Module: EnvLayers.Graph.Basic
Purpose: Dependency graphs: packages under distinct ids in the order of their declaration, the
  settings of the host and of the build, and the check that a graph is complete.
Main exports: Settings, Graph, Graph.node?, Graph.node, Graph.addNode, Graph.validate
-/

namespace EnvLayers

/-- What is known of one context. -/
structure Settings where
  os : Option Os
deriving Repr, DecidableEq, Inhabited

/-- A dependency graph. Its packages have distinct ids. -/
structure Graph where
  root : Option String := none
  settings : Settings := ⟨none⟩
  buildSettings : Settings := ⟨none⟩
  nodes : List Node := []
  source : Option String := none
  ids_nodup : (nodes.map (·.id)).Nodup := by simp

namespace Graph

/-- The ids of the packages in declaration order. -/
def ids (g : Graph) : List String := g.nodes.map (·.id)

/-- The package with an id. -/
def node? (g : Graph) (id : String) : Option Node := g.nodes.find? (·.id == id)

/-- The declared ids that hold the wanted one, or are held by it, when case does not count. -/
def idsLike (g : Graph) (id : String) : List String :=
  let needle := (Text.Case.lower id).toList
  g.ids.filter fun candidate =>
    let candidate := (Text.Case.lower candidate).toList
    Text.occursIn needle candidate || Text.occursIn candidate needle

/-- The failure to find an id. -/
def unknown (g : Graph) (id : String) : Failure := .unknownNode id (g.idsLike id)

/-- The package with an id, or the failure to find it. -/
def node (g : Graph) (id : String) : Outcome Node :=
  match g.node? id with
  | some n => .ok n
  | none => .error (g.unknown id)

/-- Adds a package at the end. An id can be declared only once. -/
def addNode (g : Graph) (n : Node) : Outcome Graph :=
  if h : n.id ∈ g.nodes.map (·.id) then .error (.duplicateNode n.id)
  else
    .ok { g with
      nodes := g.nodes ++ [n]
      ids_nodup := by
        rw [List.map_append, List.nodup_append]
        refine ⟨g.ids_nodup, by simp, ?_⟩
        intro a ha b hb
        simp only [List.map_cons, List.map_nil, List.mem_singleton] at hb
        rintro rfl
        exact h (hb ▸ ha) }

/-- Adds packages in order, up to the first whose id is declared already. -/
def addNodes (g : Graph) (nodes : List Node) : Outcome Graph := nodes.foldlM addNode g

/-- A letter or an underscore. -/
def isNameStart (c : Char) : Bool := c.isAlpha || c == '_'

/-- A letter, a digit or an underscore. -/
def isNameRest (c : Char) : Bool := c.isAlphanum || c == '_'

/-- A name that a script can hold without quotes: a letter or an underscore, and then letters,
digits and underscores, all of them in ASCII. -/
def isVariableName (name : String) : Bool :=
  match name.toList with
  | [] => false
  | c :: rest => isNameStart c && rest.all isNameRest

/-- Every provider that a package requires is declared, and every variable that it names can be used
in a script. -/
def validateNode (g : Graph) (n : Node) : Outcome Unit := do
  n.requirements.forM fun requirement => do
    let _ ← g.node requirement.node
  (n.buildEnv ++ n.runEnv).forM fun op => do
    if !isVariableName op.name then throw (.invalid (.variableName op.name n.id))

/-- The root and every package of the graph are in order. -/
def validate (g : Graph) : Outcome Unit := do
  if let some root := g.root then
    let _ ← g.node root
  g.nodes.forM g.validateNode

end Graph

end EnvLayers
