import EnvLayers.Text.Cut

/-
Module: EnvLayers.Text.Style
Purpose: Styled text for terminals. A style is switched on before a text and everything is switched
  off behind it, so a text that switches styles off itself needs the style again from there on.
Main exports: Style, Style.paint
-/

namespace EnvLayers.Text

/-- How a text looks on a terminal. -/
inductive Style where
  | bold
  | dimmed
  | green
  | yellow
  | cyan
deriving Repr, DecidableEq, Inhabited

namespace Style

/-- The number that switches a style on. -/
def code : Style → Nat
  | .bold => 1
  | .dimmed => 2
  | .green => 32
  | .yellow => 33
  | .cyan => 36

/-- The sequence that switches on what a number stands for. -/
def sequence (code : Nat) : String := "\x1b[" ++ toString code ++ "m"

/-- The sequence that switches every style off. -/
def reset : String := sequence 0

/-- A text in a style. -/
def apply (style : Style) (text : String) : String :=
  let on := sequence style.code
  let inner := replaceAll reset.toList (reset ++ on).toList text.toList
  on ++ String.ofList inner ++ reset

/-- A text in a style where the terminal shows styles, and as it is elsewhere. -/
def paint (shown : Bool) (style : Style) (text : String) : String :=
  if shown then style.apply text else text

end Style

end EnvLayers.Text
