import EnvLayers.Datum.Basic

/-
Module: EnvLayers.Datum.Outline
Purpose: The documents that this library writes: texts, flags, the absence of a value, lists, and
  records with keys in a fixed order. Every document format writes an outline in its own way.
Main exports: Outline, Outline.toDatum
-/

namespace EnvLayers

/-- A document to be written. -/
inductive Outline where
  | absent
  | flag (value : Bool)
  | text (value : String)
  | list (items : List Outline)
  | record (fields : List (String × Outline))
deriving Repr, Inhabited

namespace Outline

mutual

/-- What a reader of the written document finds. -/
def toDatum : Outline → Datum
  | .absent => .null
  | .flag b => .bool b
  | .text s => .text s
  | .list items => .seq (itemsToData items)
  | .record fields => .map (fieldsToData fields)

def itemsToData : List Outline → List Datum
  | [] => []
  | item :: rest => item.toDatum :: itemsToData rest

def fieldsToData : List (String × Outline) → List (Datum × Datum)
  | [] => []
  | (key, value) :: rest => (.text key, value.toDatum) :: fieldsToData rest

end

end Outline

end EnvLayers
