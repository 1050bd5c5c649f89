import EnvLayers.Text.CharRange

/-
Module: EnvLayers.Text.Blank
Purpose: Blank characters, the white space of Unicode, and texts without blanks at their ends.
Main exports: isBlank, trimStart, trimEnd, trim
-/

namespace EnvLayers.Text

/-- The white space characters: tab to carriage return, space, next line, no-break space, and the
spaces and separators of the general punctuation and ideographic blocks. -/
def blankRanges : List (Nat × Nat) :=
  [(0x9, 0xD), (0x20, 0x20), (0x85, 0x85), (0xA0, 0xA0), (0x1680, 0x1680), (0x2000, 0x200A),
   (0x2028, 0x2029), (0x202F, 0x202F), (0x205F, 0x205F), (0x3000, 0x3000)]

/-- White space in the sense of Unicode. -/
def isBlank (c : Char) : Bool := CharRange.mem blankRanges c

/-- The text from its first character that is not blank. -/
def trimStart (cs : List Char) : List Char := cs.dropWhile isBlank

/-- The text up to its last character that is not blank. -/
def trimEnd (cs : List Char) : List Char := (cs.reverse.dropWhile isBlank).reverse

/-- The text between its first and its last character that are not blank. -/
def trim (cs : List Char) : List Char := trimEnd (trimStart cs)

end EnvLayers.Text
