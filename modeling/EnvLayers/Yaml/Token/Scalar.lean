import EnvLayers.Yaml.Cursor

/-
Module: EnvLayers.Yaml.Token.Scalar
Purpose: The text of a scalar in each of its forms: without quotes, in single or double quotes, and
  as a block of lines.
Main exports: Scalar.readPlain, Scalar.readQuoted, Scalar.readBlock
-/

namespace EnvLayers.Yaml.Scalar

/-! ### Scalars without quotes -/

/-- The brackets and the comma, which end a scalar inside a flow collection. -/
def isFlowMark (c : Char) : Bool :=
  c == ',' || c == '[' || c == ']' || c == '\x7b' || c == '\x7d'

/-- The characters of a scalar up to the next gap or to what ends it. In a flow collection a colon
in front of a bracket, a comma or a question mark is refused. -/
def plainRun (inFlow : Bool) : List Char → Option (List Char)
  | [] => some []
  | c :: rest =>
    if isGap (some c) then some []
    else if inFlow && c == ':' && rest.head?.any (fun d => isFlowMark d || d == '?') then none
    else if (c == ':' && isGap rest.head?) || (inFlow && isFlowMark c) then some []
    else (plainRun inFlow rest).map (c :: ·)

/-- Reads on behind `text`, where `gap` stands between the text and the cursor. The flag tells
whether the scalar ends behind a line break. `fuel` bounds the number of runs. -/
def plainFrom (inFlow : Bool) (limit : Nat) : Nat → List Char → Gap → Cursor →
    Option (List Char × Bool × Cursor)
  | 0, _, _, _ => none
  | fuel + 1, text, gap, c =>
    if c.atDocumentMark || c.at? '#' then some (text, gap.broken, c)
    else
      (plainRun inFlow c.rest).bind fun run =>
        if run.isEmpty then some (text, gap.broken, c)
        else
          let text := text ++ gap.fold ++ run
          let c := c.skip run.length
          if !isGap c.head? || c.head? == none then some (text, false, c)
          else
            (c.readGap limit .empty).bind fun (gap, c) =>
              if !inFlow && c.column < limit then some (text, gap.broken, c)
              else plainFrom inFlow limit fuel text gap c

/-- Reads a scalar without quotes whose lines may not start before the column `limit`. -/
def readPlain (inFlow : Bool) (limit : Nat) (c : Cursor) : Option (List Char × Bool × Cursor) :=
  plainFrom inFlow limit (c.rest.length + 1) [] .empty c

/-! ### Quoted scalars -/

/-- The escapes of one letter. -/
def escapes : List (Char × Nat) :=
  [('0', 0x0), ('a', 0x7), ('b', 0x8), ('t', 0x9), ('\t', 0x9), ('n', 0xA), ('v', 0xB), ('f', 0xC),
   ('r', 0xD), ('e', 0x1B), (' ', 0x20), ('"', 0x22), ('/', 0x2F), ('\\', 0x5C), ('N', 0x85),
   ('_', 0xA0), ('L', 0x2028), ('P', 0x2029)]

/-- The escapes of a code point, with the number of its digits. -/
def codeLengths : List (Char × Nat) := [('x', 2), ('u', 4), ('U', 8)]

/-- The value of a hexadecimal digit. -/
def hexValue? (c : Char) : Option Nat :=
  if c.isDigit then some (c.toNat - '0'.toNat)
  else if 'a' ≤ c ∧ c ≤ 'f' then some (c.toNat - 'a'.toNat + 10)
  else if 'A' ≤ c ∧ c ≤ 'F' then some (c.toNat - 'A'.toNat + 10)
  else none

/-- The number of exactly `count` hexadecimal digits. -/
def hexNumber? : Nat → Nat → List Char → Option Nat
  | 0, value, _ => some value
  | _ + 1, _, [] => none
  | count + 1, value, c :: rest =>
    (hexValue? c).bind fun digit => hexNumber? count (value * 16 + digit) rest

/-- The character of an escape behind its backslash, and the number of characters that name it. -/
def escaped? : List Char → Option (Char × Nat)
  | [] => none
  | c :: rest =>
    match escapes.lookup c with
    | some code => some (Char.ofNat code, 1)
    | none =>
      (codeLengths.lookup c).bind fun count =>
        (hexNumber? count 0 rest).bind fun code =>
          if code.isValidChar then some (Char.ofNat code, 1 + count) else none

/-- What one step inside quotes meets: a character that it passes, an escaped line break, or the end
of the run, which is a gap, the closing quote or the end of the text. -/
inductive QuotedStep where
  | char (c : Char) (width : Nat)
  | escapedBreak
  | stop
deriving Repr, DecidableEq

/-- The next step inside single or double quotes. An escape that is none is refused. -/
def quotedStep (single : Bool) : List Char → Option QuotedStep
  | [] => some .stop
  | c :: rest =>
    if isGap (some c) then some .stop
    else if single then
      if c == '\'' then if rest.head? == some '\'' then some (.char '\'' 2) else some .stop
      else some (.char c 1)
    else if c == '"' then some .stop
    else if c == '\\' then
      if rest.head?.any isBreak then some .escapedBreak
      else (escaped? rest).map fun (char, width) => .char char (1 + width)
    else some (.char c 1)

/-- Reads characters inside quotes up to the end of a run. The flag tells whether an escaped line
break ended it. -/
def quotedRun (single : Bool) : Nat → List Char → Cursor → Option (List Char × Bool × Cursor)
  | 0, _, _ => none
  | fuel + 1, text, c =>
    match quotedStep single c.rest with
    | none => none
    | some .stop => some (text.reverse, false, c)
    | some .escapedBreak => some (text.reverse, true, (c.skip 1).pastBreak)
    | some (.char char width) => quotedRun single fuel (char :: text) (c.skip width)

/-- Reads on behind `text` up to the closing quote. -/
def quotedFrom (single : Bool) : Nat → List Char → Cursor → Option (List Char × Cursor)
  | 0, _, _ => none
  | fuel + 1, text, c =>
    if c.atDocumentMark || c.rest.isEmpty then none
    else
      (quotedRun single (c.rest.length + 1) [] c).bind fun (run, escaped, c) =>
        let text := text ++ run
        if c.at? (if single then '\'' else '"') then some (text, c.skip 1)
        else
          (c.readGap 0 (if escaped then .escaped else .empty)).bind fun (gap, c) =>
            quotedFrom single fuel (text ++ gap.fold) c

/-- Reads a quoted scalar at its opening quote. -/
def readQuoted (single : Bool) (c : Cursor) : Option (List Char × Cursor) :=
  quotedFrom single (c.rest.length + 1) [] (c.skip 1)

/-! ### Blocks of lines -/

/-- What becomes of the line breaks at the end of a block. -/
inductive Chomping where
  | strip
  | clip
  | keep
deriving Repr, DecidableEq, Inhabited

/-- The sign for the end of a block. -/
def chomping? (c : Cursor) : Option Chomping :=
  match c.head? with
  | some '+' => some .keep
  | some '-' => some .strip
  | _ => none

/-- The indentation that the header of a block gives, which is not zero. -/
def indentation? (c : Cursor) : Option (Option Nat) :=
  match c.head? with
  | some d =>
    if d == '0' then none
    else if d.isDigit then some (some (d.toNat - '0'.toNat))
    else some none
  | none => some none

/-- The header of a block: at most one sign and one digit in any order, and the end of the line. -/
def blockHeader (c : Cursor) : Option (Chomping × Option Nat × Cursor) := do
  let (chomping, indentation, c) ←
    match chomping? c with
    | some chomping => do
      let c := c.skip 1
      let indentation ← indentation? c
      pure (chomping, indentation, if indentation.isSome then c.skip 1 else c)
    | none => do
      match ← indentation? c with
      | none => pure (.clip, none, c)
      | some n =>
        let c := c.skip 1
        match chomping? c with
        | some chomping => pure (chomping, some n, c.skip 1)
        | none => pure (.clip, some n, c)
  let c ← c.lineEnd?
  return (chomping, indentation, c.pastBreak)

/-- Reads the indentation and the empty lines in front of the next line of a block. While the
indentation is not known, which zero stands for, all spaces count and the widest is the answer. A
tab in the indentation is refused. -/
def blockBreaks (indent : Nat) (widest : Nat) (breaks : List Char) (c : Cursor) :
    Option (List Char × Nat × Cursor) :=
  let outside := indent == 0 || c.column < indent
  match _hbreak : c.breakLine? with
  | some (char, next) => blockBreaks indent (max widest c.column) (breaks ++ [char]) next
  | none =>
    match _hrest : c.rest with
    | [] => some (breaks, max widest c.column, c)
    | char :: _ =>
      if outside && char == ' ' then blockBreaks indent widest breaks (c.skip 1)
      else if outside && char == '\t' then none
      else some (breaks, max widest c.column, c)
termination_by c.rest.length
decreasing_by
  · exact Cursor.length_breakLine _hbreak
  · simp [Cursor.skip, _hrest]

/-- The lines of a block that have been read: its text so far, the break of the last line, the
breaks of the empty lines behind it, and whether the last line began with a blank. -/
structure Block where
  text : List Char
  lastBreak : List Char
  emptyBreaks : List Char
  blankStart : Bool
deriving Repr, DecidableEq, Inhabited

/-- The text once another line follows. In a folded block the break between two lines that begin
without a blank is a space, unless empty lines stand between them. -/
def Block.joined (folded : Bool) (b : Block) (blankStart : Bool) : List Char :=
  if folded && b.lastBreak == ['\n'] && !b.blankStart && !blankStart then
    b.text ++ (if b.emptyBreaks.isEmpty then [' '] else []) ++ b.emptyBreaks
  else b.text ++ b.lastBreak ++ b.emptyBreaks

/-- Reads the lines of a block at the column `indent`. -/
def blockLines (folded : Bool) (indent : Nat) : Nat → Block → Cursor → Option (Block × Cursor)
  | 0, _, _ => none
  | fuel + 1, b, c =>
    if c.column == indent && !c.rest.isEmpty then
      let blankStart := c.head?.any isSpace
      let line := c.rest.takeWhile (!isBreak ·)
      let text := b.joined folded blankStart ++ line
      let c := c.skip line.length
      let (lastBreak, c) :=
        match c.breakLine? with
        | some (char, next) => ([char], next)
        | none => ([], c)
      (blockBreaks indent 0 [] c).bind fun (emptyBreaks, _, c) =>
        blockLines folded indent fuel ⟨text, lastBreak, emptyBreaks, blankStart⟩ c
    else some (b, c)

/-- The text of a block with the breaks at its end treated as its header asks. -/
def Block.finish (b : Block) : Chomping → List Char
  | .strip => b.text
  | .clip => b.text ++ b.lastBreak
  | .keep => b.text ++ b.lastBreak ++ b.emptyBreaks

/-- Reads a block at its indicator inside a collection whose column is `parent`, or `-1` outside of
all. -/
def readBlock (folded : Bool) (parent : Int) (c : Cursor) : Option (List Char × Cursor) := do
  let (chomping, indentation, c) ← blockHeader (c.skip 1)
  let given : Nat :=
    match indentation with
    | none => 0
    | some n => if 0 ≤ parent then parent.toNat + n else n
  let (emptyBreaks, widest, c) ← blockBreaks given 0 [] c
  let indent := if given == 0 then max widest (max (parent + 1) 1).toNat else given
  let (block, c) ← blockLines folded indent (c.rest.length + 1) ⟨[], [], emptyBreaks, false⟩ c
  return (block.finish chomping, c)

end EnvLayers.Yaml.Scalar
