import EnvLayers.Datum.Outline

/-
Module: EnvLayers.Json.Write
Purpose: Outlines as JSON documents over several lines: every item and every field on a line of its
  own, two columns further in than what holds it.
Main exports: Json.quote, Json.write
-/

namespace EnvLayers.Json

/-- The form of a control character that has no short one: its code in four hexadecimal digits. -/
def codeEscape (c : Char) : List Char :=
  let digits := Nat.toDigits 16 c.toNat
  '\\' :: 'u' :: (List.replicate (4 - digits.length) '0' ++ digits)

/-- One character between double quotes. Only quotes, backslashes and control characters of ASCII
are escaped. -/
def quoteChar (c : Char) : List Char :=
  if c == '"' || c == '\\' then ['\\', c]
  else if c == '\x08' then ['\\', 'b']
  else if c == '\t' then ['\\', 't']
  else if c == '\n' then ['\\', 'n']
  else if c == '\x0c' then ['\\', 'f']
  else if c == '\r' then ['\\', 'r']
  else if c.toNat < 32 then codeEscape c
  else [c]

/-- A text in double quotes. -/
def quote (s : String) : List Char := '"' :: (s.toList.flatMap quoteChar ++ ['"'])

namespace Write

/-- The start of a line of some depth. -/
def newline (depth : Nat) : List Char := '\n' :: List.replicate (2 * depth) ' '

mutual

/-- A value whose first line stands at some depth. -/
def value (depth : Nat) : Outline → List Char
  | .absent => "null".toList
  | .flag b => (if b then "true" else "false").toList
  | .text s => quote s
  | .list [] => ['[', ']']
  | .list (item :: rest) =>
    '[' :: newline (depth + 1) ++ value (depth + 1) item ++ items (depth + 1) rest
      ++ newline depth ++ [']']
  | .record [] => ['\x7b', '\x7d']
  | .record ((name, field) :: rest) =>
    '\x7b' :: newline (depth + 1) ++ quote name ++ ':' :: ' ' :: value (depth + 1) field
      ++ fields (depth + 1) rest ++ newline depth ++ ['\x7d']

/-- The items of a list after the first one. -/
def items (depth : Nat) : List Outline → List Char
  | [] => []
  | item :: rest => ',' :: newline depth ++ value depth item ++ items depth rest

/-- The fields of a record after the first one. -/
def fields (depth : Nat) : List (String × Outline) → List Char
  | [] => []
  | (name, field) :: rest =>
    ',' :: newline depth ++ quote name ++ ':' :: ' ' :: value depth field ++ fields depth rest

end

end Write

/-- The document of an outline, without a line end behind it. -/
def write (document : Outline) : String := String.ofList (Write.value 0 document)

end EnvLayers.Json
