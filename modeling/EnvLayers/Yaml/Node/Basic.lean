import EnvLayers.Yaml.Tag

/-
Module: EnvLayers.Yaml.Node.Basic
Purpose: The nodes of a document as they are written, before tags and aliases are followed. An
  anchor is a number here, and an alias refers to a node by it.
Main exports: Node, Node.anchored
-/

namespace EnvLayers.Yaml

/-- A node of a document. A scalar without quotes is told apart because its text gives it a kind.
Where the text cannot be read on, the node that would follow is broken. -/
inductive Node where
  | alias (anchor : Nat)
  | scalar (anchor : Option Nat) (tag : Option Tag) (isPlain : Bool) (text : String)
  | seq (anchor : Option Nat) (tag : Option Tag) (items : List Node)
  | map (anchor : Option Nat) (tag : Option Tag) (entries : List (Node × Node))
  | broken
deriving Repr, Inhabited

namespace Node

/-- A node with its number, if it has one. -/
def labelled (anchor : Option Nat) (n : Node) : List (Nat × Node) := (anchor.map (·, n)).toList

mutual

/-- The numbered nodes in the order in which they begin. -/
def anchored : Node → List (Nat × Node)
  | .alias _ | .broken => []
  | .scalar anchor tag isPlain text => labelled anchor (.scalar anchor tag isPlain text)
  | .seq anchor tag items => labelled anchor (.seq anchor tag items) ++ anchoredItems items
  | .map anchor tag entries => labelled anchor (.map anchor tag entries) ++ anchoredEntries entries

def anchoredItems : List Node → List (Nat × Node)
  | [] => []
  | n :: rest => anchored n ++ anchoredItems rest

def anchoredEntries : List (Node × Node) → List (Nat × Node)
  | [] => []
  | (k, v) :: rest => anchored k ++ anchored v ++ anchoredEntries rest

end

end Node

end EnvLayers.Yaml
