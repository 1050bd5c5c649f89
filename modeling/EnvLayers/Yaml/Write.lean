import EnvLayers.Datum.Outline
import EnvLayers.Yaml.Written

/-
Module: EnvLayers.Yaml.Write
Purpose: Outlines as YAML documents in block form: one line for each item and each field, lists at
  the column of the key that they belong to.
Main exports: Yaml.write
-/

namespace EnvLayers.Yaml

namespace Write

def spaces (n : Nat) : List Char := List.replicate n ' '

mutual

/-- A value after its key or dash, up to the end of its last line. `column` is where the container
of the value starts and `inList` tells that it is an item. -/
def value (column : Nat) (inList : Bool) : Outline → List Char
  | .absent => " null\n".toList
  | .flag b => (if b then " true\n" else " false\n").toList
  | .text s => ' ' :: Written.textLine (column + 2) s
  | .list [] => " []\n".toList
  | .record [] => " \x7b\x7d\n".toList
  | .list (item :: rest) =>
    if inList then ' ' :: '-' :: (value (column + 2) true item ++ items (column + 2) rest)
    else '\n' :: items column (item :: rest)
  | .record ((name, field) :: rest) =>
    let first := Written.key name ++ ':' :: value (column + 2) false field
    (if inList then [' '] else '\n' :: spaces (column + 2)) ++ first ++ fields (column + 2) rest

/-- The items of a list, each on lines of its own. -/
def items (column : Nat) : List Outline → List Char
  | [] => []
  | item :: rest => spaces column ++ '-' :: (value column true item ++ items column rest)

/-- The fields of a record, each on lines of its own. -/
def fields (column : Nat) : List (String × Outline) → List Char
  | [] => []
  | (name, field) :: rest =>
    spaces column ++ Written.key name ++ ':' :: (value column false field ++ fields column rest)

end

end Write

/-- The document of an outline. -/
def write : Outline → String
  | .absent => "null\n"
  | .flag b => if b then "true\n" else "false\n"
  | .text s => String.ofList (Written.textLine 2 s)
  | .list [] => "[]\n"
  | .record [] => "\x7b\x7d\n"
  | .list items => String.ofList (Write.items 0 items)
  | .record fields => String.ofList (Write.fields 0 fields)

end EnvLayers.Yaml
