import EnvLayers.Yaml.Event
import EnvLayers.Yaml.Token.Basic

/-
Module: EnvLayers.Yaml.Event.Parse
Purpose: The events that the tokens of a text make up, with tag handles resolved and anchors
  numbered. Where the tokens fit no document, the events before that place are kept.
Main exports: EventReader, Document.ofTokens
-/

namespace EnvLayers.Yaml

/-- The tokens that are left, the anchors declared so far with their numbers, and the events read so
far, the last one first. -/
structure Progress where
  tokens : List Token
  anchors : List (String × Nat)
  events : List Event
deriving Repr, Inhabited

/-- A step of reading a document. One that fails keeps its progress. -/
abbrev EventReader (α : Type) := OptionT (StateM Progress) α

namespace EventReader

/-- The next token. -/
def peek : EventReader Token := do
  match (← get).tokens with
  | [] => failure
  | token :: _ => return token

/-- Passes the next token. -/
def skip : EventReader Unit := modify fun p => { p with tokens := p.tokens.drop 1 }

/-- Adds an event to the document. -/
def emit (event : Event) : EventReader Unit :=
  modify fun p => { p with events := event :: p.events }

/-- A place where nothing is written. -/
def emitEmpty : EventReader Unit := emit (.scalar none none true "")

/-- Numbers an anchor by the count of distinct names before it. A name that is declared again takes
a new number, and its earlier one is free for others. -/
def declare : Option String → EventReader (Option Nat)
  | none => pure none
  | some name => do
    let p ← get
    let id := p.anchors.length
    set { p with anchors := (name, id) :: p.anchors.filter (·.1 != name) }
    return some id

/-- The number of an anchor. -/
def anchorOf (name : String) : EventReader Nat := do
  match (← get).anchors.lookup name with
  | some id => return id
  | none => failure

/-- What the tags under a handle begin with. -/
abbrev Handles := List (String × Tag)

/-- The handles that need no directive. -/
def standardHandles : Handles := [("!", .ofText "!"), ("!!", .standard)]

/-- The tag of a handle and a suffix. -/
def resolveTag (handles : Handles) (handle : String) (suffix : Tag) : EventReader Tag :=
  if handle = "" then return suffix
  else
    match handles.lookup handle with
    | some start => return start.append suffix
    | none => failure

/-- The anchor and the tag in front of a node, in either order. -/
def properties (handles : Handles) : EventReader (Option String × Option Tag) := do
  match ← peek with
  | .anchor name =>
    skip
    match ← peek with
    | .tag handle suffix =>
      skip
      return (some name, some (← resolveTag handles handle suffix))
    | _ => return (some name, none)
  | .tag handle suffix =>
    skip
    match ← peek with
    | .anchor name =>
      skip
      return (some name, some (← resolveTag handles handle suffix))
    | _ => return (none, some (← resolveTag handles handle suffix))
  | _ => return (none, none)

/-- The key of a block mapping ends here, or its value. -/
def endsBlockPart : Token → Bool
  | .key | .value | .blockEnd => true
  | _ => false

/-- An item of a list whose dashes stand at the column of its key ends here. -/
def endsIndentless : Token → Bool
  | .blockEntry | .key | .value | .blockEnd => true
  | _ => false

/-- An item of a block sequence ends here. -/
def endsBlockItem : Token → Bool
  | .blockEntry | .blockEnd => true
  | _ => false

/-- A part of a flow mapping ends here. -/
def endsFlowPart : Token → Bool
  | .value | .flowEntry | .flowMappingEnd => true
  | _ => false

/-- A part of a pair inside a flow sequence ends here. -/
def endsFlowPair : Token → Bool
  | .value | .flowEntry | .flowSequenceEnd => true
  | _ => false

mutual

/-- A node. In a block it may be a block collection, and behind a key also a list whose dashes stand
at the key's column. -/
def readNode (handles : Handles) : Nat → (block indentless : Bool) → EventReader Unit
  | 0, _, _ => failure
  | fuel + 1, block, indentless => do
    if let .alias name ← peek then
      skip
      return ← emit (.alias (← anchorOf name))
    let (anchor, tag) ← properties handles
    match ← peek with
    | .scalar isPlain text =>
      skip
      emit (.scalar (← declare anchor) tag isPlain text)
    | .blockEntry =>
      if indentless then
        emit (.sequenceStart (← declare anchor) tag)
        indentlessItems handles fuel
      else bare anchor tag
    | .flowSequenceStart =>
      skip
      emit (.sequenceStart (← declare anchor) tag)
      flowItems handles fuel true
    | .flowMappingStart =>
      skip
      emit (.mappingStart (← declare anchor) tag)
      flowEntries handles fuel true
    | .blockSequenceStart =>
      if block then
        skip
        emit (.sequenceStart (← declare anchor) tag)
        blockItems handles fuel
      else bare anchor tag
    | .blockMappingStart =>
      if block then
        skip
        emit (.mappingStart (← declare anchor) tag)
        blockEntries handles fuel
      else bare anchor tag
    | _ => bare anchor tag
where
  /-- A node with nothing but an anchor or a tag. -/
  bare (anchor : Option String) (tag : Option Tag) : EventReader Unit := do
    if anchor.isNone && tag.isNone then failure
    else emit (.scalar (← declare anchor) tag true "")

/-- A node, or the empty one where the next token ends the place of it. -/
def readUnless (handles : Handles) (ends : Token → Bool) :
    Nat → (block indentless : Bool) → EventReader Unit
  | 0, _, _ => failure
  | fuel + 1, block, indentless => do
    if ends (← peek) then emitEmpty else readNode handles fuel block indentless

def blockItems (handles : Handles) : Nat → EventReader Unit
  | 0 => failure
  | fuel + 1 => do
    match ← peek with
    | .blockEntry =>
      skip
      readUnless handles endsBlockItem fuel true false
      blockItems handles fuel
    | .blockEnd =>
      skip
      emit .collectionEnd
    | _ => failure

def indentlessItems (handles : Handles) : Nat → EventReader Unit
  | 0 => failure
  | fuel + 1 => do
    match ← peek with
    | .blockEntry =>
      skip
      readUnless handles endsIndentless fuel true false
      indentlessItems handles fuel
    | _ => emit .collectionEnd

def blockEntries (handles : Handles) : Nat → EventReader Unit
  | 0 => failure
  | fuel + 1 => do
    match ← peek with
    | .key =>
      skip
      readUnless handles endsBlockPart fuel true true
      match ← peek with
      | .value =>
        skip
        readUnless handles endsBlockPart fuel true true
      | _ => emitEmpty
      blockEntries handles fuel
    | .blockEnd =>
      skip
      emit .collectionEnd
    | _ => failure

/-- The rest of a flow sequence. Behind the first item a comma has to stand in front of each. -/
def flowItems (handles : Handles) : Nat → (first : Bool) → EventReader Unit
  | 0, _ => failure
  | fuel + 1, first => do
    if (← peek) == .flowSequenceEnd then
      skip
      return ← emit .collectionEnd
    if !first then
      if (← peek) == .flowEntry then skip else failure
    match ← peek with
    | .flowSequenceEnd =>
      skip
      emit .collectionEnd
    | .key =>
      skip
      emit (.mappingStart none none)
      flowPair handles fuel
      emit .collectionEnd
      flowItems handles fuel false
    | _ =>
      readNode handles fuel false false
      flowItems handles fuel false

/-- A pair inside a flow sequence. Where its key is left out, the token that shows it is passed. -/
def flowPair (handles : Handles) : Nat → EventReader Unit
  | 0 => failure
  | fuel + 1 => do
    if endsFlowPair (← peek) then
      skip
      emitEmpty
    else readNode handles fuel false false
    match ← peek with
    | .value =>
      skip
      match ← peek with
      | .flowEntry | .flowSequenceEnd => emitEmpty
      | _ => readNode handles fuel false false
    | _ => emitEmpty

/-- The rest of a flow mapping. Behind the first entry a comma has to stand in front of each. -/
def flowEntries (handles : Handles) : Nat → (first : Bool) → EventReader Unit
  | 0, _ => failure
  | fuel + 1, first => do
    if (← peek) == .flowMappingEnd then
      skip
      return ← emit .collectionEnd
    if !first then
      if (← peek) == .flowEntry then skip else failure
    match ← peek with
    | .flowMappingEnd =>
      skip
      emit .collectionEnd
    | .key =>
      skip
      readUnless handles endsFlowPart fuel false false
      match ← peek with
      | .value =>
        skip
        match ← peek with
        | .flowEntry | .flowMappingEnd => emitEmpty
        | _ => readNode handles fuel false false
      | _ => emitEmpty
      flowEntries handles fuel false
    | _ =>
      readNode handles fuel false false
      emitEmpty
      flowEntries handles fuel false

end

/-- The directives in front of a document: at most one version, which has to be known, and handles,
each declared once. -/
def directives : Nat → (version : Bool) → Handles → EventReader Handles
  | 0, _, _ => failure
  | fuel + 1, version, handles => do
    match ← peek with
    | .versionDirective major minor =>
      if version || major != 1 || !(minor == 1 || minor == 2) then failure
      else
        skip
        directives fuel true handles
    | .tagDirective handle start =>
      if handles.any (·.1 == handle) then failure
      else
        skip
        directives fuel version (handles ++ [(handle, start)])
    | _ => return handles

/-- The next token belongs to what stands between two documents. -/
def isBetween : Token → Bool
  | .versionDirective .. | .tagDirective .. | .documentStart | .documentEnd | .streamEnd => true
  | _ => false

/-- The first document of a text. A node right at the start needs no mark. -/
def firstDocument (fuel : Nat) : EventReader Unit := do
  match ← peek with
  | .streamEnd => return ()
  | .versionDirective .. | .tagDirective .. | .documentStart =>
    let declared ← directives fuel false []
    if (← peek) != .documentStart then failure
    skip
    if isBetween (← peek) then emitEmpty
    else readNode (declared ++ standardHandles) fuel true false
    closing
  | _ =>
    readNode standardHandles fuel true false
    closing
where
  /-- The mark behind a document, if it has one. -/
  closing : EventReader Unit := do
    if (← peek) == .documentEnd then skip

end EventReader

/-- Nothing but marks stands behind the first document. -/
def endsStream (tokens : List Token) : Bool :=
  (tokens.dropWhile (· == .documentEnd)).head? == some .streamEnd

/-- The first document of a text, given its tokens. -/
def Document.ofTokens (tokens : List Token) : Document :=
  let (read, p) := (EventReader.firstDocument (4 * tokens.length + 8)).run ⟨tokens, [], []⟩
  let ending :=
    if read.isNone then .broken else if endsStream p.tokens then .last else .more
  ⟨p.events.reverse, ending⟩

end EnvLayers.Yaml
