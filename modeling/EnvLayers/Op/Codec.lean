import EnvLayers.Op.Basic
import EnvLayers.Datum.Decode
import EnvLayers.Datum.Outline

/-
Module: EnvLayers.Op.Codec
Purpose: The form of an operation in a document: a mapping whose first key tells the kind. Reading
  tries the kinds in order and takes the first whose fields all fit.
Main exports: Op.outline, Op.encode, Op.decode, outlineOps, encodeOps, decodeOps
-/

namespace EnvLayers

namespace Placement

/-- The key that names the variable of an operation of this kind. -/
def key : Placement → String
  | .define => "define"
  | .append => "append"
  | .prepend => "prepend"

/-- The kinds in the order in which reading tries them. -/
def all : List Placement := [.define, .append, .prepend]

end Placement

namespace Op

/-- The fields of an operation in the order in which they are written. A path flag that is off and a
separator that is absent are left out. -/
def fields : Op → List (String × Outline)
  | .put place name value isPath separator =>
    [(place.key, .text name), ("value", .text value)]
      ++ (if isPath then [("path", .flag true)] else [])
      ++ separator.toList.map fun joiner => ("separator", .text joiner)
  | .unset name => [("unset", .text name)]

/-- The record of an operation. -/
def outline (op : Op) : Outline := .record op.fields

/-- The mapping of an operation. -/
def encode (op : Op) : Datum := op.outline.toDatum

/-- An operation of one kind, if all of its fields fit. -/
def decodePut? (place : Placement) (d : Datum) : Option Op := do
  let fields ← Datum.fieldsOf [place.key, "value", "path", "separator"] d
  let name ← Datum.requiredText fields place.key
  let value ← Datum.requiredText fields "value"
  let isPath ← Datum.flag fields "path" false
  let separator ← Datum.optionalText fields "separator"
  return .put place name value isPath separator

/-- An unset, if its field fits. -/
def decodeUnset? (d : Datum) : Option Op := do
  let fields ← Datum.fieldsOf ["unset"] d
  let name ← Datum.requiredText fields "unset"
  return .unset name

/-- The operation of the first kind that fits. -/
def decode? (d : Datum) : Option Op :=
  (Placement.all.findSome? fun place => decodePut? place d).or (decodeUnset? d)

/-- Reads an operation. A tag anywhere in it is refused before the kinds are tried. -/
def decode (d : Datum) : Decoded Op :=
  if d.hasTag then .error .taggedAlternative
  else
    match decode? d with
    | some op => .ok op
    | none => .error (.noAlternative "EnvOp")

end Op

/-- The list of some operations. -/
def outlineOps (ops : List Op) : Outline := .list (ops.map Op.outline)

/-- The sequence of some operations. -/
def encodeOps (ops : List Op) : Datum := (outlineOps ops).toDatum

/-- Reads a sequence of operations. -/
def decodeOps (d : Datum) : Decoded (List Op) := d.readList Op.decode

end EnvLayers
