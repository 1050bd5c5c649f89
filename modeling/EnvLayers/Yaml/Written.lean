import EnvLayers.Yaml.Char
import EnvLayers.Yaml.Plain

/-
Module: EnvLayers.Yaml.Written
Purpose: The written form of a text in a document: without quotes where it would be read back as the
  same text, as a block of its own lines when it holds line feeds, and otherwise in quotes.
Main exports: Style, Style.choose, Written.text
-/

namespace EnvLayers.Yaml

/-- How a text is written. -/
inductive Style where
  | plain
  | single
  | double
  | literal
deriving Repr, DecidableEq, Inhabited

namespace Style

/-- A character that begins a construct other than a scalar without quotes. -/
def isIndicator (c : Char) : Bool :=
  "#,[]\x7b\x7d&*!|>'\"%@\x60".toList.contains c

/-- The first character of a text, with what follows it, begins another construct. -/
def startsConstruct (c : Char) (rest : List Char) : Bool :=
  isIndicator c || ((c == '?' || c == ':' || c == '-') && isGap rest.head?)

/-- Somewhere after the first character stands the end of a key or the start of a comment. -/
def breaksOff (before : Char) : List Char → Bool
  | [] => false
  | c :: rest =>
    (c == ':' && isGap rest.head?) || (c == '#' && isGap (some before)) || breaksOff c rest

/-- The text begins like the mark between two documents. -/
def startsDocument (cs : List Char) : Bool :=
  "---".toList.isPrefixOf cs || "...".toList.isPrefixOf cs

/-- A text that cannot stand without quotes because of the characters it is made of. -/
def needsQuotes (cs : List Char) : Bool :=
  match cs with
  | [] => false
  | c :: rest => startsDocument cs || startsConstruct c rest || breaksOff c rest

/-- Two neighbours of a text, a first and a second one. -/
def hasNeighbours (first second : Char → Bool) : List Char → Bool
  | c :: d :: rest => (first c && second d) || hasNeighbours first second (d :: rest)
  | _ => false

def isBlankChar (c : Char) : Bool := c == ' '

/-- Spaces or line breaks at an end, which only quotes keep. -/
def hasLooseEnd (cs : List Char) : Bool :=
  let loose (c : Char) : Bool := isBlankChar c || isBreak c
  cs.head?.any loose || cs.getLast?.any loose

/-- A character that only an escape can show. -/
def hasUnprintable (cs : List Char) : Bool := cs.any (!isPrintable ·)

/-- A space in front of a line break. -/
def hasSpaceBreak (cs : List Char) : Bool := hasNeighbours isBlankChar isBreak cs

/-- A line break in front of a space. -/
def hasBreakSpace (cs : List Char) : Bool := hasNeighbours isBreak isBlankChar cs

def plainAllowed (cs : List Char) : Bool :=
  !(needsQuotes cs || hasLooseEnd cs || cs.any isBreak || hasUnprintable cs)

def singleAllowed (cs : List Char) : Bool :=
  !(hasUnprintable cs || hasSpaceBreak cs || hasBreakSpace cs)

def literalAllowed (cs : List Char) : Bool :=
  !(hasUnprintable cs || hasSpaceBreak cs || cs.getLast? == some ' ')

/-- The style of a text: what its content asks for, as far as its characters allow it. A key is kept
on one line. -/
def choose (isKey : Bool) (s : String) : Style :=
  let cs := s.toList
  if isKey && cs.any isBreak then .double
  else if cs.contains '\n' then
    if literalAllowed cs && !isKey then .literal else .double
  else if Plain.isText s && !Plain.isPaddedDigits cs && plainAllowed cs then .plain
  else if singleAllowed cs then .single
  else .double

end Style

namespace Written

/-- The characters of a text between single quotes. `afterBreak` holds when the last character was a
line break: then the text goes on at the indentation. -/
def singleBody (indent : Nat) (afterBreak : Bool) : List Char → List Char
  | [] => if afterBreak then List.replicate indent ' ' else []
  | c :: rest =>
    if isBreak c then c :: singleBody indent true rest
    else
      (if afterBreak then List.replicate indent ' ' else [])
        ++ (if c == '\'' then ['\'', '\''] else [c]) ++ singleBody indent false rest

/-- The code point of a character in capital hexadecimal digits. -/
def hexCode (width : Nat) (c : Char) : List Char :=
  let digits := (Nat.toDigits 16 c.toNat).map Char.toUpper
  List.replicate (width - digits.length) '0' ++ digits

/-- The escapes that have a letter of their own. -/
def namedEscapes : List (Nat × Char) :=
  [(0x0, '0'), (0x7, 'a'), (0x8, 'b'), (0x9, 't'), (0xA, 'n'), (0xB, 'v'), (0xC, 'f'), (0xD, 'r'),
   (0x1B, 'e'), (0x22, '"'), (0x5C, '\\'), (0x85, 'N'), (0xA0, '_'), (0x2028, 'L'), (0x2029, 'P')]

/-- The escape of a character between double quotes. -/
def escapeOf (c : Char) : List Char :=
  match namedEscapes.lookup c.toNat with
  | some letter => ['\\', letter]
  | none =>
    if c.toNat ≤ 0xFF then '\\' :: 'x' :: hexCode 2 c
    else if c.toNat ≤ 0xFFFF then '\\' :: 'u' :: hexCode 4 c
    else '\\' :: 'U' :: hexCode 8 c

/-- One character between double quotes. -/
def doubleChar (c : Char) : List Char :=
  if !isPrintable c || isBreak c || c == '"' || c == '\\' then escapeOf c else [c]

/-- What a block of lines has to say about itself: its indentation when its first line begins with a
space or is empty, and what becomes of the line breaks at its end. -/
def literalHints (cs : List Char) : List Char :=
  (if cs.head?.any fun c => c == ' ' || isBreak c then ['2'] else [])
    ++ (match cs.reverse with
        | [] => ['-']
        | last :: before =>
          if !isBreak last then ['-']
          else
            match before with
            | [] => ['+']
            | c :: _ => if isBreak c then ['+'] else [])

/-- The lines of a block, each that is not empty at the indentation. -/
def literalBody (indent : Nat) (afterBreak : Bool) : List Char → List Char
  | [] => []
  | c :: rest =>
    if isBreak c then c :: literalBody indent true rest
    else
      (if afterBreak then List.replicate indent ' ' else []) ++ c :: literalBody indent false rest

/-- A text in a style, with lines of its own at `indent`. A block ends its last line itself. -/
def styled (style : Style) (indent : Nat) (cs : List Char) : List Char :=
  match style with
  | .plain => cs
  | .single => '\'' :: (singleBody indent false cs ++ ['\''])
  | .double => '"' :: (cs.flatMap doubleChar ++ ['"'])
  | .literal => '|' :: (literalHints cs ++ '\n' :: literalBody indent true cs)

/-- The written form of a value up to the end of its line. -/
def textLine (indent : Nat) (s : String) : List Char :=
  let style := Style.choose false s
  let written := styled style indent s.toList
  if style == .literal && s.toList.getLast?.any isBreak then written else written ++ ['\n']

/-- The written form of a key. -/
def key (s : String) : List Char := styled (Style.choose true s) 0 s.toList

end Written

end EnvLayers.Yaml
