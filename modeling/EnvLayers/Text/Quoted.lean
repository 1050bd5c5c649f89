import EnvLayers.Text.Hidden

/-
Module: EnvLayers.Text.Quoted
Purpose: A text in double quotes as it stands in a message: quotes, backslashes and characters that
  cannot be seen are escaped, so that two different texts never look alike.
Main exports: Quoted.quote
-/

namespace EnvLayers.Text.Quoted

/-- The form of one character between the quotes. -/
def quoteChar (c : Char) : List Char :=
  if c == '"' || c == '\\' then ['\\', c]
  else if c == '\n' then ['\\', 'n']
  else if c == '\r' then ['\\', 'r']
  else if c == '\t' then ['\\', 't']
  else if c.toNat == 0 then ['\\', '0']
  else if Hidden.isHidden c then '\\' :: 'u' :: '{' :: (Nat.toDigits 16 c.toNat ++ ['}'])
  else [c]

/-- The text in double quotes. -/
def quote (s : String) : String :=
  String.ofList ('"' :: (s.toList.flatMap quoteChar ++ ['"']))

end EnvLayers.Text.Quoted
