import EnvLayers.Datum.Decode
import EnvLayers.Yaml.Event.Parse
import EnvLayers.Yaml.Node.Nest
import EnvLayers.Yaml.Plain
import EnvLayers.Yaml.Token.Scan

/-
Module: EnvLayers.Yaml.Read
Purpose: The structured value of a YAML text: scalars get their kind, aliases stand for the nodes
  that they refer to, and keys that are written twice are refused.
Main exports: Node.toDatum, Yaml.read
-/

namespace EnvLayers.Yaml

namespace Node

/-- A value under its tag. The name that an application gives stays on the value. -/
def underTag (tag : Option Tag) (d : Datum) : Datum :=
  match tag.bind Tag.localName? with
  | some name => .tagged name d
  | none => d

/-- The value of a scalar without quotes. An integer that does not fit is refused. -/
def plainDatum (text : String) : Option Datum :=
  match Plain.read text with
  | .null => some .null
  | .bool b => some (.bool b)
  | .int i => some (.int i)
  | .wideInt => none
  | .float x => some (.float x)
  | .text => some (.text text)

/-- The value of a scalar whose tag asks for a kind. One that is not of the kind is refused, and a
kind that is not known is a text. -/
def kindDatum (tag : Tag) (text : String) : Option Datum :=
  if tag = .ofKind "bool" then (Plain.boolWord? text).map .bool
  else if tag = .ofKind "int" then
    match Plain.integer? text.toList with
    | some (.int i) => some (.int i)
    | _ => none
  else if tag = .ofKind "float" then (Plain.float? text).map .float
  else if tag = .ofKind "null" then
    if Plain.isNullWord text then some .null else none
  else some (.text text)

/-- The value of a scalar. The tag of an application does not change its kind. -/
def scalarDatum (tag : Option Tag) (isPlain : Bool) (text : String) : Option Datum :=
  match tag.filter (!·.isLocal) with
  | some tag => kindDatum tag text
  | none => (if isPlain then plainDatum text else some (.text text)).map (underTag tag)

/-- Reads a value and counts the aliases that it follows. -/
abbrev Expansion (α : Type) := StateT Nat (Except DocumentFault) α

/-- Follows one more alias, up to the limit. -/
def followAlias (limit : Nat) : Expansion Unit := fun count =>
  if limit ≤ count then .error .tooManyAliases else .ok ((), count + 1)

/-- Adds an entry to a mapping, whose keys are distinct. -/
def addEntry (entries : List (Datum × Datum)) (key : Datum) (read : Expansion Datum) :
    Expansion (List (Datum × Datum)) := do
  if entries.any (·.1.same key) then throw .unreadable
  return entries ++ [(key, ← read)]

/-- The value of a node, where `depth` bounds the collections inside one another. An alias stands
for a scalar or a collection, so that `fuel` need not exceed twice the depth by more than two. -/
def expand (table : List (Nat × Node)) (limit : Nat) :
    (fuel : Nat) → (depth : Nat) → Node → Expansion Datum
  | 0, _, _ | _, _, .broken => throw .unreadable
  | fuel + 1, depth, .alias id => do
    followAlias limit
    match table.lookup id with
    | some n => expand table limit fuel depth n
    | none => throw .unreadable
  | _ + 1, _, .scalar _ tag isPlain text =>
    match scalarDatum tag isPlain text with
    | some d => return d
    | none => throw .unreadable
  | _ + 1, 0, .seq .. => throw .unreadable
  | fuel + 1, depth + 1, .seq _ tag items => do
    return underTag tag (.seq (← items.mapM (expand table limit fuel depth)))
  | _ + 1, 0, .map .. => throw .unreadable
  | fuel + 1, depth + 1, .map _ tag entries => do
    let entries ← entries.foldlM (fun found (key, value) => do
      addEntry found (← expand table limit fuel depth key) (expand table limit fuel depth value)) []
    return underTag tag (.map entries)

/-- The value of a document that may follow `limit` aliases. -/
def toDatum (depth limit : Nat) (root : Node) : Except DocumentFault Datum :=
  (expand root.anchored.reverse limit (2 * depth + 2) depth root 0).map (·.1)

end Node

/-- The number of collections that may stand inside one another. -/
def depthLimit : Nat := 128

/-- The number of aliases that may be followed for each event of a document. -/
def aliasesPerEvent : Nat := 100

/-- The value of a text, which holds at most one document. A text without a document is null. What
stands in front of a place that cannot be read is looked at before that place is. -/
def read (text : String) : Except DocumentFault Datum := do
  let document := Document.ofTokens (Token.scan text.toList)
  let d ←
    match Node.ofEvents? document.events with
    | none => pure .null
    | some root => root.toDatum depthLimit (aliasesPerEvent * document.events.length)
  match document.ending with
  | .broken => throw .unreadable
  | .more => throw .severalDocuments
  | .last => return d

end EnvLayers.Yaml
