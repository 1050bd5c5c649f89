import EnvLayers.Datum.Basic

/-
Module: EnvLayers.Datum.Decode
Purpose: Reading values of a known form out of structured values: the ways in which a structure does
  not fit, scalars, lists, records that are read entry by entry, and the named fields of one of
  several alternatives.
Main exports: DecodeFault, DecodeFault.message, DocumentFault, Decoded, Datum.readText,
  Datum.readList, Datum.readRecord, Datum.fieldsOf
-/

namespace EnvLayers

/-- Why a structured value does not have the form that was asked for. -/
inductive DecodeFault where
  | missingField (name : String)
  | duplicateField (name : String)
  | unknownVariant (name : String) (known : List String)
  | wrongKind (found : Datum) (expected : String)
  | unexpectedMapping (expected : String)
  | variantWithoutContent
  | noAlternative (type : String)
  | taggedAlternative
  | wrongLength (length : Nat) (expected : String)
deriving Repr, Inhabited

namespace DecodeFault

/-- A name as it stands in a message. -/
def ticked (name : String) : String := "`" ++ name ++ "`"

/-- The alternatives of an unknown one. -/
def alternatives : List String → String
  | [] => "there are no variants"
  | [a] => "expected " ++ ticked a
  | [a, b] => "expected " ++ ticked a ++ " or " ++ ticked b
  | names => "expected one of " ++ ", ".intercalate (names.map ticked)

/-- The message of a fault in a document of some format. -/
def message (wording : Datum.Wording) : DecodeFault → String
  | .missingField name => "missing field " ++ ticked name
  | .duplicateField name => "duplicate field " ++ ticked name
  | .unknownVariant name known => "unknown variant " ++ ticked name ++ ", " ++ alternatives known
  | .wrongKind found expected =>
    "invalid type: " ++ found.describe wording ++ ", expected " ++ expected
  | .unexpectedMapping expected => "invalid value: map, expected " ++ expected
  | .variantWithoutContent => "invalid type: unit variant, expected newtype variant"
  | .noAlternative type => "data did not match any variant of untagged enum " ++ type
  | .taggedAlternative => "untagged and internally tagged enums do not support enum input"
  | .wrongLength length expected =>
    "invalid length " ++ toString length ++ ", expected " ++ expected

end DecodeFault

/-- Why a text is not a document of the form that was asked for: it cannot be read at all, its
aliases repeat too much, it holds several documents, or its structure does not fit. -/
inductive DocumentFault where
  | unreadable
  | tooManyAliases
  | severalDocuments
  | structural (fault : DecodeFault)
deriving Repr, Inhabited

/-- The wording of a fault of a document. A text that cannot be read has no wording of its own. -/
def DocumentFault.message? : DocumentFault → Option String
  | .unreadable => none
  | .tooManyAliases => some "repetition limit exceeded"
  | .severalDocuments =>
    some "deserializing from YAML containing more than one document is not supported"
  | .structural fault => some (fault.message .yaml)

/-- The result of reading a structured value. -/
abbrev Decoded (α : Type) := Except DecodeFault α

namespace Datum

/-- A text, under any tags. -/
def readText (d : Datum) : Decoded String :=
  match d.untag with
  | .text s => .ok s
  | other => .error (.wrongKind other "a string")

/-- A text that stands for a path, under any tags. -/
def readPath (d : Datum) : Decoded String :=
  match d.untag with
  | .text s => .ok s
  | other => .error (.wrongKind other "path string")

/-- Null is the absence of a value. A tag makes even null a value. -/
def readOptional {α : Type} (read : Datum → Decoded α) : Datum → Decoded (Option α)
  | .null => .ok none
  | d => (read d).map some

/-- The items of a sequence in order, up to the first that does not fit. Null is the empty sequence.
-/
def readList {α : Type} (read : Datum → Decoded α) (d : Datum) : Decoded (List α) :=
  match d.untag with
  | .seq items => items.mapM read
  | .null => .ok []
  | other => .error (.wrongKind other "a sequence")

/-- The entries of a record. Null is the record without entries. -/
def readEntries (type : String) (d : Datum) : Decoded (List (Datum × Datum)) :=
  match d.untag with
  | .map entries => .ok entries
  | .null => .ok []
  | other => .error (.wrongKind other ("struct " ++ type))

/-- The name of a record's field. -/
def readFieldName (d : Datum) : Decoded String :=
  match d.untag with
  | .text s => .ok s
  | other => .error (.wrongKind other "field identifier")

/-- Reads the entries of a record in their order, each known field once, and leaves unknown fields
alone. `seen` lists the known fields read so far. -/
def foldFields {α : Type} (known : List String) (set : α → String → Datum → Decoded α)
    (seen : List String) (record : α) : List (Datum × Datum) → Decoded α
  | [] => .ok record
  | (key, value) :: rest => do
    let name ← readFieldName key
    if known.contains name then
      if seen.contains name then throw (.duplicateField name)
      let record ← set record name value
      foldFields known set (name :: seen) record rest
    else foldFields known set seen record rest

/-- A record: the fields of `start` replaced by those that the mapping gives. -/
def readRecord {α : Type} (type : String) (known : List String)
    (set : α → String → Datum → Decoded α) (start : α) (d : Datum) : Decoded α := do
  foldFields known set [] start (← readEntries type d)

/-- The field that a key of an alternative means: its name or its number. `none` is a key that names
no field, and a key of another kind does not fit. -/
def fieldOfKey (names : List String) : Datum → Option (Option String)
  | .text s => some (if names.contains s then some s else none)
  | .int i => if 0 ≤ i then some names[i.toNat]? else none
  | _ => none

/-- The named fields of a mapping, each at most once. -/
def namedFields (names : List String) : List (Datum × Datum) → Option (List (String × Datum))
  | [] => some []
  | (key, value) :: rest => do
    let found ← namedFields names rest
    match ← fieldOfKey names key with
    | none => some found
    | some name => if found.any (·.1 == name) then none else some ((name, value) :: found)

/-- The fields of an alternative, from a mapping by name or from a sequence by position. A sequence
may leave out fields at its end but has no further items. -/
def fieldsOf (names : List String) : Datum → Option (List (String × Datum))
  | .map entries => namedFields names entries
  | .seq items => if items.length ≤ names.length then some (names.zip items) else none
  | _ => none

/-- The text of a field that has to be there. -/
def requiredText (fields : List (String × Datum)) (name : String) : Option String :=
  match fields.lookup name with
  | some (.text s) => some s
  | _ => none

/-- The text of a field that may be left out or null. -/
def optionalText (fields : List (String × Datum)) (name : String) : Option (Option String) :=
  match fields.lookup name with
  | none | some .null => some none
  | some (.text s) => some (some s)
  | _ => none

/-- The truth value of a field that may be left out. -/
def flag (fields : List (String × Datum)) (name : String) (default : Bool) : Option Bool :=
  match fields.lookup name with
  | none => some default
  | some (.bool b) => some b
  | _ => none

end Datum

end EnvLayers
