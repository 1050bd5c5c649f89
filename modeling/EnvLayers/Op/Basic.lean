/-
Module: EnvLayers.Op.Basic
Purpose: Operations on environment variables, as packages and profiles declare them, and the
  separators that join the values of a variable.
Main exports: Separator, Placement, Op, Op.define, Op.append, Op.prepend, Op.asPath,
  Op.withSeparator, Op.name, Op.value, Op.separator
-/

namespace EnvLayers

/-- How the values of a variable are joined to one text. -/
inductive Separator where
  | text (joiner : String)
  | path
deriving Repr, DecidableEq

/-- Values are joined by a single space unless an operation declares otherwise. -/
def Separator.default : Separator := .text " "

instance : Inhabited Separator := ⟨Separator.default⟩

/-- Where an operation puts its value: in place of everything, at the tail or at the head. -/
inductive Placement where
  | define
  | append
  | prepend
deriving Repr, DecidableEq, Inhabited

/-- One operation on one variable. -/
inductive Op where
  | put (place : Placement) (name value : String) (isPath : Bool) (separator : Option String)
  | unset (name : String)
deriving Repr, DecidableEq, Inhabited

namespace Op

/-- Replace the variable by a value. -/
def define (name value : String) : Op := .put .define name value false none

/-- Add a value at the tail of the variable. -/
def append (name value : String) : Op := .put .append name value false none

/-- Add a value at the head of the variable. -/
def prepend (name value : String) : Op := .put .prepend name value false none

/-- The same operation on a path list. An unset has no list to act on and stays as it is. -/
def asPath : Op → Op
  | .put place name value _ separator => .put place name value true separator
  | .unset name => .unset name

/-- The same operation with a declared separator. An unset stays as it is. -/
def withSeparator (op : Op) (joiner : String) : Op :=
  match op with
  | .put place name value isPath _ => .put place name value isPath (some joiner)
  | .unset name => .unset name

/-- The variable that the operation acts on. -/
def name : Op → String
  | .put _ name _ _ _ => name
  | .unset name => name

/-- The value that the operation carries. -/
def value : Op → Option String
  | .put _ _ value _ _ => some value
  | .unset _ => none

/-- The separator that the operation declares. A path list wins over a declared text. -/
def separator : Op → Option Separator
  | .put _ _ _ true _ => some .path
  | .put _ _ _ false joiner => joiner.map .text
  | .unset _ => none

end Op

end EnvLayers
