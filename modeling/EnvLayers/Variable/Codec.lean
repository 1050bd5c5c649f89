import EnvLayers.Variable.Basic
import EnvLayers.Datum.Decode

/-
Module: EnvLayers.Variable.Codec
Purpose: The form of a variable's state in a document: a record or a sequence of its name, its
  entries and its separator, where an entry and a separator are words or mappings with one key.
Main exports: Variable.decode
-/

namespace EnvLayers

/-- An alternative that is written as a word, or as a mapping of the word to a content. -/
def Datum.readWord (known : List String) (d : Datum) : Decoded (String × Option Datum) :=
  let checked (word : String) (content : Option Datum) : Decoded (String × Option Datum) :=
    if known.contains word then .ok (word, content) else .error (.unknownVariant word known)
  match d with
  | .text word => checked word none
  | .map [(.text word, content)] => checked word (some content)
  | .map _ => .error (.unexpectedMapping "map with a single key")
  | other => .error (.wrongKind other "string or map")

/-- The content of a word that stands alone: there is none, or it is null. -/
def Datum.readNoContent : Option Datum → Decoded Unit
  | none | some .null => .ok ()
  | some other => .error (.wrongKind other "unit")

/-- The text under a word. -/
def Datum.readContentText : Option Datum → Decoded String
  | none => .error .variantWithoutContent
  | some d => d.readText

namespace Variable

def decodeItem (d : Datum) : Decoded Item := do
  let (word, content) ← d.readWord ["Value", "Previous"]
  if word = "Value" then return .value (← Datum.readContentText content)
  else
    Datum.readNoContent content
    return .previous

def decodeSeparator (d : Datum) : Decoded Separator := do
  let (word, content) ← d.readWord ["Text", "Path"]
  if word = "Text" then return .text (← Datum.readContentText content)
  else
    Datum.readNoContent content
    return .path

/-- The entries of a variable: a sequence, and nothing else counts as one. -/
def decodeItems : Datum → Decoded (List Item)
  | .seq items => items.mapM decodeItem
  | other => .error (.wrongKind other "a sequence")

/-- The fields of a variable that have been read. -/
structure Partial where
  name : Option String
  items : Option (List Item)
  separator : Option Separator

def Partial.empty : Partial := ⟨none, none, none⟩

def Partial.set (p : Partial) (field : String) (d : Datum) : Decoded Partial := do
  if field = "name" then return { p with name := some (← d.readText) }
  else if field = "items" then return { p with items := some (← decodeItems d) }
  else return { p with separator := some (← decodeSeparator d) }

def fieldNames : List String := ["name", "items", "separator"]

/-- The variable once every field has been read. -/
def Partial.finish : Partial → Decoded Variable
  | ⟨none, _, _⟩ => .error (.missingField "name")
  | ⟨_, none, _⟩ => .error (.missingField "items")
  | ⟨_, _, none⟩ => .error (.missingField "separator")
  | ⟨some name, some items, some separator⟩ => .ok ⟨name, items, separator⟩

/-- Reads the state of a variable from a record or from the sequence of its fields. -/
def decode (d : Datum) : Decoded Variable := do
  match d with
  | .map entries => (← Datum.foldFields fieldNames Partial.set [] .empty entries).finish
  | .seq items =>
    let p ← (fieldNames.zip items).foldlM (fun p (name, value) => p.set name value) Partial.empty
    match p.finish with
    | .error _ => throw (.wrongLength items.length "struct EnvValue with 3 elements")
    | .ok v =>
      if fieldNames.length < items.length then
        throw (.wrongLength items.length "fewer elements in array")
      return v
  | other => throw (.wrongKind other "struct EnvValue")

end Variable

end EnvLayers
