import EnvLayers.Yaml.Token.Name

/-
Module: EnvLayers.Yaml.Token.Scan
Purpose: The tokens of a text. Whether a scalar is the key of a mapping shows only at the colon
  behind it, so tokens wait in a queue as long as a key may still have to be put in front of them.
Main exports: Scanner, Scanner.fetch, Token.scan
-/

namespace EnvLayers.Yaml

/-- A token that may turn out to begin a key: its number and place. A required one stands where only
a key can stand. -/
structure KeyStart where
  required : Bool
  number : Nat
  offset : Nat
  line : Nat
  column : Nat
deriving Repr, DecidableEq, Inhabited

/-- The state of a scan. `released` counts the tokens that have left the queue. `indent` is the
column of the innermost block collection, `-1` outside of all, with the outer ones in `outer`.
`keys` holds the possible key of each flow collection, the innermost first, and last that of the
block level. -/
structure Scanner where
  cursor : Cursor
  queue : List Token
  released : Nat
  indent : Int
  outer : List Int
  flowDepth : Nat
  keyAllowed : Bool
  keys : List (Option KeyStart)
  ended : Bool
deriving Repr, DecidableEq, Inhabited

namespace Scanner

def start (text : List Char) : Scanner :=
  ⟨.start text, [], 0, -1, [], 0, true, [none], false⟩

def inFlow (s : Scanner) : Bool := 0 < s.flowDepth

def push (s : Scanner) (token : Token) : Scanner := { s with queue := s.queue ++ [token] }

/-- Puts a token in front of the one with a number. -/
def insert (s : Scanner) (number : Nat) (token : Token) : Scanner :=
  let place := number - s.released
  { s with queue := s.queue.take place ++ token :: s.queue.drop place }

/-- The possible key at the current level. -/
def possibleKey (s : Scanner) : Option KeyStart := s.keys.head?.join

def setKey (s : Scanner) (key : Option KeyStart) : Scanner :=
  { s with keys := key :: s.keys.drop 1 }

/-- Gives up the possible key at the current level. One that is required must not be given up. -/
def dropKey (s : Scanner) : Option Scanner :=
  if s.possibleKey.any (·.required) then none else some (s.setKey none)

/-- Notes that the next token may begin a key. -/
def saveKey (s : Scanner) : Option Scanner :=
  if s.keyAllowed then
    let c := s.cursor
    let key : KeyStart :=
      ⟨!s.inFlow && s.indent == c.column, s.released + s.queue.length, c.offset, c.line, c.column⟩
    s.dropKey.map (·.setKey (some key))
  else some s

/-- A key stands on one line and has at most 1024 bytes. -/
def KeyStart.isStale (c : Cursor) (key : KeyStart) : Bool :=
  key.line < c.line || key.offset + 1024 < c.offset

/-- Gives up the possible keys of all levels that the cursor has left behind. -/
def dropStaleKeys (s : Scanner) : Option Scanner :=
  let stale (key : Option KeyStart) : Bool := key.any (KeyStart.isStale s.cursor)
  if s.keys.any fun key => stale key && key.any (·.required) then none
  else some { s with keys := s.keys.map fun key => if stale key then none else key }

/-- Opens a block collection at a column that is further in. -/
def openBlock (s : Scanner) (column : Nat) (add : Scanner → Scanner) : Scanner :=
  if s.inFlow || (column : Int) ≤ s.indent then s
  else add { s with indent := column, outer := s.indent :: s.outer }

/-- Closes block collections until the innermost is not further in than a column. -/
def closeUntil (column : Int) (indent : Int) (outer : List Int) (queue : List Token) :
    Int × List Int × List Token :=
  if indent ≤ column then (indent, outer, queue)
  else
    match outer with
    | [] => (-1, [], queue ++ [.blockEnd])
    | next :: outer => closeUntil column next outer (queue ++ [.blockEnd])

/-- Closes the block collections that are further in than a column. -/
def closeBlocks (s : Scanner) (column : Int) : Scanner :=
  if s.inFlow then s
  else
    let (indent, outer, queue) := closeUntil column s.indent s.outer s.queue
    { s with indent, outer, queue }

/-- Skips blanks, comments and line breaks up to the next token. A tab counts as a blank where no
key may stand. In block context a new line may begin with a key. -/
def skipToToken : Nat → Scanner → Scanner
  | 0, s => s
  | fuel + 1, s =>
    let c := s.cursor
    let c := if c.column == 0 && c.head?.any isByteOrderMark then c.skip 1 else c
    let c := c.skipWhile fun char => char == ' ' || ((s.inFlow || !s.keyAllowed) && char == '\t')
    let c := if c.at? '#' then c.skipWhile (!isBreak ·) else c
    match c.breakLine? with
    | some (_, next) =>
      skipToToken fuel { s with cursor := next, keyAllowed := s.keyAllowed || !s.inFlow }
    | none => { s with cursor := c }

/-- A token of `n` characters. -/
def take (s : Scanner) (n : Nat) (token : Token) : Scanner :=
  { s with cursor := s.cursor.skip n }.push token

/-- A token that was read up to a cursor. -/
def takeTo (s : Scanner) (token : Token) (c : Cursor) : Scanner := { s with cursor := c }.push token

def allowKey (s : Scanner) (allowed : Bool) : Scanner := { s with keyAllowed := allowed }

/-- The end of the text, which ends its last line. -/
def fetchEnd (s : Scanner) : Option Scanner := do
  let c := s.cursor
  let c := if c.column == 0 then c else c.nextLine 0
  let s ← ({ s with cursor := c }.closeBlocks (-1)).dropKey
  return { s.allowKey false with ended := true }.push .streamEnd

/-- A directive in front of a document. -/
def fetchDirective (s : Scanner) : Option Scanner := do
  let s ← (s.closeBlocks (-1)).dropKey
  let (token, c) ← Name.readDirective s.cursor
  return (s.allowKey false).takeTo token c

/-- A mark between two documents. -/
def fetchDocumentMark (s : Scanner) (token : Token) : Option Scanner := do
  let s ← (s.closeBlocks (-1)).dropKey
  return (s.allowKey false).take 3 token

/-- An opening bracket. -/
def fetchFlowStart (s : Scanner) (token : Token) : Option Scanner := do
  let s ← s.saveKey
  let s := { s with keys := none :: s.keys, flowDepth := s.flowDepth + 1 }.allowKey true
  return s.take 1 token

/-- A closing bracket. One without an opening bracket leaves the level as it is. -/
def fetchFlowEnd (s : Scanner) (token : Token) : Option Scanner := do
  let s ← s.dropKey
  let s := if s.inFlow then { s with keys := s.keys.drop 1, flowDepth := s.flowDepth - 1 } else s
  return (s.allowKey false).take 1 token

/-- A comma inside a flow collection. -/
def fetchFlowEntry (s : Scanner) : Option Scanner := do
  let s ← s.dropKey
  return (s.allowKey true).take 1 .flowEntry

/-- The column of the cursor opens a block collection, where a key may stand. -/
def openHere (s : Scanner) (token : Token) : Option Scanner :=
  if s.inFlow then some s
  else if s.keyAllowed then some (s.openBlock s.cursor.column (·.push token))
  else none

/-- A dash in front of an item. -/
def fetchBlockEntry (s : Scanner) : Option Scanner := do
  let s ← s.openHere .blockSequenceStart
  let s ← s.dropKey
  return (s.allowKey true).take 1 .blockEntry

/-- A question mark in front of a key. -/
def fetchKey (s : Scanner) : Option Scanner := do
  let s ← s.openHere .blockMappingStart
  let s ← s.dropKey
  return (s.allowKey (!s.inFlow)).take 1 .key

/-- A colon in front of a value. It makes the possible key one, or else stands for itself. -/
def fetchValue (s : Scanner) : Option Scanner := do
  match s.possibleKey with
  | some key =>
    let s := s.insert key.number .key
    let s := s.openBlock key.column (·.insert key.number .blockMappingStart)
    return ((s.setKey none).allowKey false).take 1 .value
  | none =>
    let s ← s.openHere .blockMappingStart
    return (s.allowKey (!s.inFlow)).take 1 .value

/-- An anchor or an alias. -/
def fetchAnchor (s : Scanner) (make : String → Token) : Option Scanner := do
  let s ← s.saveKey
  let (name, c) ← Name.readAnchor s.cursor
  return (s.allowKey false).takeTo (make name) c

/-- A tag. -/
def fetchTag (s : Scanner) : Option Scanner := do
  let s ← s.saveKey
  let (token, c) ← Name.readTag s.inFlow s.cursor
  return (s.allowKey false).takeTo token c

/-- A block of lines, behind which a key may stand. -/
def fetchBlockScalar (s : Scanner) (folded : Bool) : Option Scanner := do
  let s ← s.dropKey
  let (text, c) ← Scalar.readBlock folded s.indent s.cursor
  return (s.allowKey true).takeTo (.scalar false (String.ofList text)) c

/-- A quoted scalar. -/
def fetchQuoted (s : Scanner) (single : Bool) : Option Scanner := do
  let s ← s.saveKey
  let (text, c) ← Scalar.readQuoted single s.cursor
  return (s.allowKey false).takeTo (.scalar false (String.ofList text)) c

/-- A scalar without quotes. Behind the end of its last line a key may stand. -/
def fetchPlain (s : Scanner) : Option Scanner := do
  let s ← s.saveKey
  let (text, broken, c) ← Scalar.readPlain s.inFlow (s.indent + 1).toNat s.cursor
  return (s.allowKey broken).takeTo (.scalar true (String.ofList text)) c

/-- A character that cannot begin a scalar without quotes. -/
def isReserved (c : Char) : Bool := "-?:,[]\x7b\x7d#&*!|>'\"%@\x60".toList.contains c

/-- A scalar without quotes begins at the character that `next` follows. -/
def beginsPlain (inFlow : Bool) (c : Char) (next : Option Char) : Bool :=
  !(isGap (some c) || isReserved c)
    || (c == '-' && !next.any isSpace)
    || (!inFlow && (c == '?' || c == ':') && !isGap next)

/-- Reads the token that begins with a character. -/
def fetchAt (s : Scanner) (char : Char) (next : Option Char) : Option Scanner :=
  match char with
  | '[' => s.fetchFlowStart .flowSequenceStart
  | '\x7b' => s.fetchFlowStart .flowMappingStart
  | ']' => s.fetchFlowEnd .flowSequenceEnd
  | '\x7d' => s.fetchFlowEnd .flowMappingEnd
  | ',' => s.fetchFlowEntry
  | '*' => s.fetchAnchor .alias
  | '&' => s.fetchAnchor .anchor
  | '!' => s.fetchTag
  | '\'' => s.fetchQuoted true
  | '"' => s.fetchQuoted false
  | _ =>
    if char == '-' && isGap next then s.fetchBlockEntry
    else if char == '?' && (s.inFlow || isGap next) then s.fetchKey
    else if char == ':' && (s.inFlow || isGap next) then s.fetchValue
    else if char == '|' && !s.inFlow then s.fetchBlockScalar false
    else if char == '>' && !s.inFlow then s.fetchBlockScalar true
    else if beginsPlain s.inFlow char next then s.fetchPlain
    else none

/-- Reads the next token and puts it into the queue, with the tokens that it implies. -/
def fetch (s : Scanner) : Option Scanner := do
  let s ← (skipToToken (s.cursor.rest.length + 1) s).dropStaleKeys
  let s := s.closeBlocks s.cursor.column
  let c := s.cursor
  match c.head? with
  | none => s.fetchEnd
  | some char =>
    if c.column == 0 && char == '%' then s.fetchDirective
    else if c.atDocumentMark then
      s.fetchDocumentMark (if char == '-' then .documentStart else .documentEnd)
    else s.fetchAt char c.second?

/-- The number of tokens at the head of the queue that no key can come before any more. -/
def settled (s : Scanner) : Nat :=
  s.keys.foldl (fun n key => match key with
    | some key => min n (key.number - s.released)
    | none => n) s.queue.length

/-- Takes the settled tokens out of the queue. -/
def release (s : Scanner) : List Token × Scanner :=
  let n := s.settled
  (s.queue.take n, { s with queue := s.queue.drop n, released := s.released + n })

/-- The tokens up to the end of the text, or up to the place where it cannot be read on. -/
def tokens : Nat → Scanner → List Token
  | 0, _ => []
  | fuel + 1, s =>
    match s.fetch.bind dropStaleKeys with
    | none => []
    | some s =>
      let (ready, s) := s.release
      if s.ended then ready else ready ++ tokens fuel s

end Scanner

/-- The tokens of a text that can be told apart. -/
def Token.scan (text : List Char) : List Token :=
  if text.all isAllowed then (Scanner.start text).tokens (text.length + 2) else []

end EnvLayers.Yaml
