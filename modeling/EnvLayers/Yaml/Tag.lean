import EnvLayers.Datum.Basic

/-
Module: EnvLayers.Yaml.Tag
Purpose: The tags of nodes. A percent sign may write any byte of a tag, so a tag is a list of bytes,
  which need not be a text.
Main exports: Tag, Tag.ofText, Tag.ofBytes, Tag.localName?, Tag.nonSpecific
-/

namespace EnvLayers.Yaml

/-- A tag, or a part of one. -/
structure Tag where
  bytes : List UInt8
deriving Repr, DecidableEq, Inhabited

namespace Tag

/-- The tag that is written as a text. -/
def ofText (text : String) : Tag := ⟨text.toUTF8.data.toList⟩

/-- The tag that is written by its bytes. A zero byte ends it. -/
def ofBytes (bytes : List UInt8) : Tag := ⟨bytes.takeWhile (· != 0)⟩

/-- The tag that begins with one part and goes on with another. -/
def append (start suffix : Tag) : Tag := ⟨start.bytes ++ suffix.bytes⟩

/-- The text of a tag whose bytes are one. -/
def text? (tag : Tag) : Option String := String.fromUTF8? ⟨tag.bytes.toArray⟩

/-- The exclamation mark alone, which names no kind. -/
def nonSpecific : Tag := ofText "!"

/-- The tag belongs to an application: it begins with an exclamation mark. -/
def isLocal (tag : Tag) : Bool := (ofText "!").bytes.isPrefixOf tag.bytes

/-- The name that an application gives to a value. A tag that is no text gives none. -/
def localName? (tag : Tag) : Option String :=
  if tag.isLocal then tag.text?.map Datum.tagName else none

/-- What the tags of the standard kinds begin with. -/
def standard : Tag := ofText "tag:yaml.org,2002:"

/-- The tag of a standard kind. -/
def ofKind (name : String) : Tag := standard.append (ofText name)

end Tag

end EnvLayers.Yaml
