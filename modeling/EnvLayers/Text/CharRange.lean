/-
Module: EnvLayers.Text.CharRange
Purpose: Sets of characters given as lists of code point ranges, the form in which the tables of
  the character properties of this library are written.
Main exports: CharRange.mem
-/

namespace EnvLayers.Text.CharRange

/-- A character belongs to a list of ranges when one of them holds its code point, both ends
included. -/
def mem (ranges : List (Nat × Nat)) (c : Char) : Bool :=
  ranges.any fun range => range.1 ≤ c.toNat && c.toNat ≤ range.2

end EnvLayers.Text.CharRange
