import EnvLayers.Yaml.Char

/-
Module: EnvLayers.Yaml.Cursor
Purpose: A place in a text: the characters that are left, with their position as a count of
  bytes, a line and a column. Gaps are the blanks and line breaks between two parts of a
  scalar, and they are folded when the scalar goes on behind them.
Main exports: Cursor, Cursor.skip, Cursor.breakLine?, Cursor.skipWhile, Gap, Gap.fold,
  Cursor.readGap
-/

namespace EnvLayers.Yaml

/-- The number of bytes that characters take. -/
def byteLength : List Char → Nat
  | [] => 0
  | c :: rest => c.utf8Size + byteLength rest

/-- A place in a text. The offset is the number of bytes in front of it. -/
structure Cursor where
  rest : List Char
  offset : Nat
  line : Nat
  column : Nat
deriving Repr, DecidableEq, Inhabited

namespace Cursor

def start (text : List Char) : Cursor := ⟨text, 0, 0, 0⟩

/-- The next character. -/
def head? (c : Cursor) : Option Char := c.rest.head?

/-- The character after the next one. -/
def second? (c : Cursor) : Option Char := (c.rest.drop 1).head?

/-- The next character is the given one. -/
def at? (c : Cursor) (char : Char) : Bool := c.head? == some char

/-- Behind the next `n` characters of the line. -/
def skip (c : Cursor) (n : Nat) : Cursor :=
  ⟨c.rest.drop n, c.offset + byteLength (c.rest.take n), c.line, c.column + n⟩

/-- At the start of the next line, behind the `n` characters of a line break. -/
def nextLine (c : Cursor) (n : Nat) : Cursor :=
  ⟨c.rest.drop n, c.offset + byteLength (c.rest.take n), c.line + 1, 0⟩

/-- Behind the longest stretch of characters that fit, which hold no line break. -/
def skipWhile (c : Cursor) (fits : Char → Bool) : Cursor := c.skip (c.rest.takeWhile fits).length

/-- The line break at the cursor as it counts in a text, and the place behind it. All breaks count
as a line feed but the two separators of Unicode, which count as themselves. -/
def breakLine? (c : Cursor) : Option (Char × Cursor) :=
  match c.rest with
  | '\r' :: '\n' :: _ => some ('\n', c.nextLine 2)
  | char :: _ =>
    if char == '\n' || char == '\r' || char.toNat == 0x85 then some ('\n', c.nextLine 1)
    else if isBreak char then some (char, c.nextLine 1)
    else none
  | [] => none

/-- Behind a line break, if the cursor stands at one. -/
def pastBreak (c : Cursor) : Cursor :=
  match c.breakLine? with
  | some (_, next) => next
  | none => c

/-- Behind the blanks of the line and a comment, at the end of the line, if nothing else stands
there. -/
def lineEnd? (c : Cursor) : Option Cursor :=
  let c := c.skipWhile isSpace
  let c := if c.at? '#' then c.skipWhile (!isBreak ·) else c
  if isLineEnd c.head? then some c else none

/-- A mark between two documents: three dashes or three dots at the start of a line, and a gap. -/
def atDocumentMark (c : Cursor) : Bool :=
  c.column == 0
    && ("---".toList.isPrefixOf c.rest || "...".toList.isPrefixOf c.rest)
    && isGap (c.rest.drop 3).head?

theorem length_breakLine {c next : Cursor} {char : Char} (h : c.breakLine? = some (char, next)) :
    next.rest.length < c.rest.length := by
  unfold breakLine? at h
  split at h
  · next heq =>
    simp only [Option.some.injEq, Prod.mk.injEq] at h
    simp only [← h.2, nextLine, heq, List.drop_succ_cons, List.drop_zero, List.length_cons]
    omega
  · next heq =>
    split at h
    · simp only [Option.some.injEq, Prod.mk.injEq] at h
      simp [← h.2, nextLine, heq]
    · split at h
      · simp only [Option.some.injEq, Prod.mk.injEq] at h
        simp [← h.2, nextLine, heq]
      · simp at h
  · simp at h

end Cursor

/-- What stands between two parts of a scalar: the blanks before the first line break, and the line
breaks. `broken` holds when the line has ended, which an escaped line break also does. -/
structure Gap where
  spaces : List Char
  firstBreak : Option Char
  moreBreaks : List Char
  broken : Bool
deriving Repr, DecidableEq, Inhabited

namespace Gap

def empty : Gap := ⟨[], none, [], false⟩

/-- The gap behind an escaped line break, which itself leaves nothing. -/
def escaped : Gap := ⟨[], none, [], true⟩

def addSpace (g : Gap) (c : Char) : Gap :=
  if g.broken then g else { g with spaces := g.spaces ++ [c] }

def addBreak (g : Gap) (c : Char) : Gap :=
  if g.broken then { g with moreBreaks := g.moreBreaks ++ [c] }
  else ⟨[], some c, [], true⟩

/-- What a gap leaves in the text of a scalar: blanks within a line stay, a single line feed becomes
a space, and of several the first goes. -/
def fold (g : Gap) : List Char :=
  if !g.broken then g.spaces
  else
    match g.firstBreak with
    | some '\n' => if g.moreBreaks.isEmpty then [' '] else g.moreBreaks
    | first => first.toList ++ g.moreBreaks

end Gap

namespace Cursor

/-- Reads a gap to its end. Behind a line break no tab may stand before the column `limit`. -/
def readGap (limit : Nat) (g : Gap) (c : Cursor) : Option (Gap × Cursor) :=
  match _hbreak : c.breakLine? with
  | some (char, next) => readGap limit (g.addBreak char) next
  | none =>
    match _hrest : c.rest with
    | [] => some (g, c)
    | char :: _ =>
      if isSpace char then
        if g.broken && c.column < limit && char == '\t' then none
        else readGap limit (g.addSpace char) (c.skip 1)
      else some (g, c)
termination_by c.rest.length
decreasing_by
  · exact length_breakLine _hbreak
  · simp [skip, _hrest]

end Cursor

end EnvLayers.Yaml
