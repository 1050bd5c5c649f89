import EnvLayers.Text.CharRange

/-
Module: EnvLayers.Yaml.Char
Purpose: The classes of characters that the syntax of YAML tells apart.
Main exports: Yaml.isBreak, Yaml.isSpace, Yaml.isAllowed, Yaml.isPrintable, Yaml.isNameChar
-/

namespace EnvLayers.Yaml

open Text

/-- A character that ends a line. -/
def isBreak (c : Char) : Bool :=
  c == '\n' || c == '\r' || c.toNat == 0x85 || c.toNat == 0x2028 || c.toNat == 0x2029

/-- A space or a tab. -/
def isSpace (c : Char) : Bool := c == ' ' || c == '\t'

/-- The end of a text, a line break, a space or a tab. -/
def isGap : Option Char → Bool
  | none => true
  | some c => isSpace c || isBreak c

/-- The end of a text or a line break. -/
def isLineEnd : Option Char → Bool
  | none => true
  | some c => isBreak c

/-- The mark that may stand at the start of a line to tell the byte order. -/
def isByteOrderMark (c : Char) : Bool := c.toNat == 0xFEFF

/-- A character that may stand in a document: no controls but tabs and line breaks, and none of the
two last code points of the basic plane. -/
def isAllowed (c : Char) : Bool :=
  CharRange.mem [(0x9, 0xA), (0xD, 0xD), (0x20, 0x7E), (0x85, 0x85), (0xA0, 0xD7FF),
    (0xE000, 0xFFFD), (0x10000, 0x10FFFF)] c

/-- A character that is written as it is: allowed, and neither a tab, nor a carriage return or next
line, nor the byte order mark. -/
def isPrintable (c : Char) : Bool :=
  isAllowed c && !(c == '\t' || c == '\r' || c.toNat == 0x85 || isByteOrderMark c)

/-- A character of the names of anchors, tag handles and directives. -/
def isNameChar (c : Char) : Bool := c.isAlphanum || c == '_' || c == '-'

end EnvLayers.Yaml
