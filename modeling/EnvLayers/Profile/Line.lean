import EnvLayers.Op.Basic
import EnvLayers.Text.Blank
import EnvLayers.Text.Cut
import EnvLayers.Text.Word

/-
Module: EnvLayers.Profile.Line
Purpose: The lines of a profile: section headers, includes, and definitions, which put a value into
  a variable of the packages under a pattern.
Main exports: Line.section?, Line.include?, Line.definition?
-/

namespace EnvLayers.Line

open Text

/-- A character that can begin the name of a section. -/
def isSectionStart (c : Char) : Bool := c.isAlpha || c == '_'

/-- A character that can stand inside the name of a section. -/
def isSectionRest (c : Char) : Bool := Word.isWordChar c || c == '.'

/-- The name of the section that a trimmed line opens: a name between brackets, blanks around it
allowed. -/
def section? (line : List Char) : Option String :=
  match line with
  | '[' :: rest =>
    (dropFinal ']' rest).bind fun inner =>
      match trim inner with
      | [] => none
      | c :: name =>
        if isSectionStart c && name.all isSectionRest then some (String.ofList (c :: name))
        else none
  | _ => none

/-- The target of an include between its parentheses, without the blanks around it. Of a target that
is nothing but blanks the last one stays. -/
def includeTarget (inner : List Char) : Option String :=
  match trim inner with
  | [] => inner.getLast?.map String.singleton
  | target => some (String.ofList target)

/-- The target of the include that a trimmed line asks for. -/
def include? (line : List Char) : Option String :=
  (dropPrefix "include(".toList line).bind fun rest => (dropFinal ')' rest).bind includeTarget

/-- The pattern and the name to the left of the operator. The pattern ends at the last colon.
Neither may be empty, and the name holds no blanks. -/
def subject? (left : List Char) : Option (Option String × String) :=
  let (pattern, name) :=
    match cutLast ':' left with
    | some (pattern, name) => (some (trim pattern), trim name)
    | none => (none, trim left)
  if name.isEmpty || name.any isBlank then none
  else if pattern = some [] then none
  else some (pattern.map String.ofList, String.ofList name)

/-- The operation that puts the value to the right of the operator. A mark in front of the value
makes it an entry of a path list. -/
def putOp (place : Placement) (name : String) (right : List Char) : Op :=
  let value := trim right
  match dropPrefix "(path)".toList value with
  | some rest => .put place name (String.ofList rest) true none
  | none => .put place name (String.ofList value) false none

/-- The operation of a definition whose name is known: what stands to the right of the first equals
sign decides, unless a plus in front of the sign has made it an append. -/
def opOf (appending : Bool) (name : String) (right : List Char) : Op :=
  if appending then putOp .append name right
  else
    match right with
    | '!' :: _ => .unset name
    | '+' :: rest => putOp .prepend name rest
    | _ => putOp .define name right

/-- The pattern and the operation of a definition, or nothing for a line that is none. -/
def definition? (line : List Char) : Option (Option String × Op) := do
  let (left, right) ← cutFirst '=' line
  let (left, appending) :=
    match dropFinal '+' left with
    | some left => (left, true)
    | none => (left, false)
  let (pattern, name) ← subject? left
  return (pattern, opOf appending name right)

end EnvLayers.Line
