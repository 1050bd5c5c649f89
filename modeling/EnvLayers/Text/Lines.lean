/-
Module: EnvLayers.Text.Lines
Purpose: Texts made of lines.
Main exports: Lines.render
-/

namespace EnvLayers.Text.Lines

/-- The text of lines that all end in the same way. -/
def render (lineEnd : String) (lines : List String) : String :=
  String.join (lines.map (· ++ lineEnd))

end EnvLayers.Text.Lines
