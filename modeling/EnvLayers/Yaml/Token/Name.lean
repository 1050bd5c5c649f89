import EnvLayers.Yaml.Token.Basic
import EnvLayers.Yaml.Token.Scalar

/-
Module: EnvLayers.Yaml.Token.Name
Purpose: Names in a YAML text: anchors and aliases, tags, and the directives in front of a document.
Main exports: Name.readAnchor, Name.readTag, Name.readDirective
-/

namespace EnvLayers.Yaml.Name

/-- The characters that may follow the name of an anchor without a gap. -/
def endsAnchor : Option Char → Bool
  | none => true
  | some c => isGap (some c) || "?:,]\x7d%@\x60".toList.contains c

/-- The name of an anchor or an alias behind its sign. -/
def readAnchor (c : Cursor) : Option (String × Cursor) :=
  let c := c.skip 1
  let name := c.rest.takeWhile isNameChar
  let c := c.skip name.length
  if name.isEmpty || !endsAnchor c.head? then none else some (String.ofList name, c)

/-- A handle of tags: an exclamation mark, or a name between two of them. What looks like a handle
without its second mark is kept as it is for the caller to judge. -/
def readHandle (c : Cursor) : Option (List Char × Cursor) :=
  if c.at? '!' then
    let name := (c.rest.drop 1).takeWhile isNameChar
    let c := c.skip (1 + name.length)
    if c.at? '!' then some ('!' :: (name ++ ['!']), c.skip 1) else some ('!' :: name, c)
  else none

/-- The number of bytes of a character whose first byte is given. -/
def byteCount? (byte : Nat) : Option Nat :=
  if byte < 0x80 then some 1
  else if byte / 0x20 == 0x6 then some 2
  else if byte / 0x10 == 0xE then some 3
  else if byte / 0x8 == 0x1E then some 4
  else none

/-- A byte written as a percent sign and two digits, and what follows it. -/
def readByte? : List Char → Option (Nat × List Char)
  | '%' :: high :: low :: rest => do
    return ((← Scalar.hexValue? high) * 16 + (← Scalar.hexValue? low), rest)
  | _ => none

/-- The next `count` written bytes, each of which has to continue a character. -/
def readContinuation : Nat → List Char → Option (List UInt8)
  | 0, _ => some []
  | count + 1, cs => do
    let (byte, rest) ← readByte? cs
    if byte / 0x40 == 0x2 then return byte.toUInt8 :: (← readContinuation count rest) else none

/-- The written bytes of one character. Their number is right, but they need not be the bytes of
any character there is. -/
def readEncoded? (cs : List Char) : Option (List UInt8) := do
  let (first, rest) ← readByte? cs
  let count ← byteCount? first
  return first.toUInt8 :: (← readContinuation (count - 1) rest)

/-- A character of a tag. Commas and square brackets count only in a verbatim tag and in a
directive. -/
def isUriChar (verbatim : Bool) (c : Char) : Bool :=
  isNameChar c || ";/?:@&=+$.%!~*'()".toList.contains c
    || (verbatim && (c == ',' || c == '[' || c == ']'))

/-- The bytes of a tag up to the first character that cannot belong to it. The bytes before the
cursor come in reverse. -/
def uriFrom (verbatim : Bool) : Nat → List UInt8 → Cursor → Option (List UInt8 × Cursor)
  | 0, _, _ => none
  | fuel + 1, before, c =>
    match c.rest with
    | [] => some (before.reverse, c)
    | char :: _ =>
      if isUriChar verbatim char then
        if char == '%' then
          (readEncoded? c.rest).bind fun bytes =>
            uriFrom verbatim fuel (bytes.reverse ++ before) (c.skip (3 * bytes.length))
        else uriFrom verbatim fuel (char.toUInt8 :: before) (c.skip 1)
      else some (before.reverse, c)

/-- Reads the bytes of a tag. -/
def readUri (verbatim : Bool) (c : Cursor) : Option (List UInt8 × Cursor) :=
  uriFrom verbatim (c.rest.length + 1) [] c

/-- A tag in full between angle brackets. -/
def readVerbatim (c : Cursor) : Option (Token × Cursor) := do
  let (suffix, c) ← readUri true (c.skip 2)
  if suffix.isEmpty || !c.at? '>' then none
  else return (.tag "" (.ofBytes suffix), c.skip 1)

/-- The handle of a tag names a directive: it ends in a second mark. -/
def isNamedHandle (handle : List Char) : Bool :=
  1 < handle.length && handle.getLast? == some '!'

/-- A tag in short: a handle and a suffix, or a suffix alone, which belongs to the handle of one
mark. The mark alone is a tag without a handle. -/
def readShorthand (c : Cursor) : Option (Token × Cursor) := do
  let (handle, c) ← readHandle c
  let (suffix, c) ← readUri false c
  if isNamedHandle handle then
    if suffix.isEmpty then none
    else return (.tag (String.ofList handle) (.ofBytes suffix), c)
  else
    let suffix := Tag.ofBytes ((handle.drop 1).map Char.toUInt8 ++ suffix)
    if suffix.bytes.isEmpty then return (.tag "" .nonSpecific, c)
    else return (.tag "!" suffix, c)

/-- Reads a tag, which a gap has to follow, or a comma inside a flow collection. -/
def readTag (inFlow : Bool) (c : Cursor) : Option (Token × Cursor) := do
  let (token, c) ← if c.second? == some '<' then readVerbatim c else readShorthand c
  if isGap c.head? || (inFlow && c.at? ',') then return (token, c) else none

/-- A number of a version, of at most nine digits. -/
def readVersionNumber (c : Cursor) : Option (Nat × Cursor) :=
  let digits := c.rest.takeWhile Char.isDigit
  if digits.isEmpty || 9 < digits.length then none
  else some (digits.foldl (fun n d => n * 10 + (d.toNat - '0'.toNat)) 0, c.skip digits.length)

/-- The version that a directive asks for. -/
def readVersion (c : Cursor) : Option (Token × Cursor) := do
  let (major, c) ← readVersionNumber (c.skipWhile isSpace)
  if !c.at? '.' then none
  else
    let (minor, c) ← readVersionNumber (c.skip 1)
    return (.versionDirective major minor, c)

/-- The handle that a directive declares and the text that it stands for. -/
def readTagDirective (c : Cursor) : Option (Token × Cursor) := do
  let (handle, c) ← readHandle (c.skipWhile isSpace)
  if !(handle == ['!'] || isNamedHandle handle) || !c.head?.any isSpace then none
  else
    let (start, c) ← readUri true (c.skipWhile isSpace)
    if start.isEmpty || !isGap c.head? then none
    else return (.tagDirective (String.ofList handle) (.ofBytes start), c)

/-- Reads a directive with the line that it stands on. -/
def readDirective (c : Cursor) : Option (Token × Cursor) := do
  let c := c.skip 1
  let name := c.rest.takeWhile isNameChar
  let c := c.skip name.length
  if !isGap c.head? then none
  else
    let (token, c) ←
      if name == "YAML".toList then readVersion c
      else if name == "TAG".toList then readTagDirective c
      else none
    return (token, (← c.lineEnd?).pastBreak)

end EnvLayers.Yaml.Name
