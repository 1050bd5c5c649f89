import EnvLayers.Op.Basic

/-
Module: EnvLayers.Variable.Basic
Purpose: The state of one variable while operations are layered onto it, and its flattening to one
  text. A variable that was never touched holds only the outer value; a define replaces everything,
  an unset empties the list.
Main exports: Item, Variable, Variable.fresh, Variable.apply, Variable.applyAll, Variable.flatten,
  Variable.sides
-/

namespace EnvLayers

/-- One entry of a variable: a value, or whatever the variable held before. -/
inductive Item where
  | value (text : String)
  | previous
deriving Repr, DecidableEq, Inhabited

/-- A variable with its entries in order and the separator in force. -/
structure Variable where
  name : String
  items : List Item
  separator : Separator
deriving Repr, DecidableEq, Inhabited

namespace Variable

/-- A variable that no operation has touched. -/
def fresh (name : String) : Variable := ⟨name, [.previous], .default⟩

/-- The entries after one operation. -/
def placed (items : List Item) : Op → List Item
  | .put .define _ value _ _ => [.value value]
  | .put .append _ value _ _ => items ++ [.value value]
  | .put .prepend _ value _ _ => .value value :: items
  | .unset _ => []

/-- Layers one operation on top of the variable. Its separator changes only where the operation
declares one. -/
def apply (v : Variable) (op : Op) : Variable :=
  { v with items := placed v.items op, separator := op.separator.getD v.separator }

/-- Layers operations in order. -/
def applyAll (v : Variable) (ops : List Op) : Variable := ops.foldl apply v

/-- The values are joined as a search path. -/
def isPath (v : Variable) : Bool := v.separator == .path

/-- The variable has to be removed from the environment. -/
def isUnset (v : Variable) : Bool := v.items.isEmpty

/-- The outer value of the variable is kept. -/
def keepsOuter (v : Variable) : Bool := v.items.contains .previous

/-- The text between two values. -/
def joiner (v : Variable) (pathSeparator : String) : String :=
  match v.separator with
  | .text joiner => joiner
  | .path => pathSeparator

/-- The values among some entries. -/
def valuesOf (items : List Item) : List String :=
  items.filterMap fun
    | .value text => some text
    | .previous => none

/-- The values before and after the outer value. Where the outer value is not kept, all of them
stand before it. -/
def sides (v : Variable) : List String × List String :=
  (valuesOf (v.items.takeWhile (· != .previous)), valuesOf (v.items.dropWhile (· != .previous)))

/-- What one entry contributes to a flattened text: empty values nothing, the outer value its
placeholder where there is one. -/
def shown (placeholder : Option String) : Item → Option String
  | .value text => if text = "" then none else some text
  | .previous => placeholder

/-- The variable as one text, or nothing for a variable that is unset. -/
def flatten (v : Variable) (placeholder : Option String) (pathSeparator : String) : Option String :=
  if v.isUnset then none
  else some ((v.joiner pathSeparator).intercalate (v.items.filterMap (shown placeholder)))

end Variable

end EnvLayers
