import EnvLayers.Path
import EnvLayers.Profile.Basic
import EnvLayers.Profile.Line

/-
Module: EnvLayers.Profile.Parse
Purpose: Reading the text of a profile line by line. Includes count before the first section header;
  of the sections, those of the two scopes are read, and a bad definition in one of them is refused.
Main exports: Profile.readLines, Profile.parse, Profile.parseFile
-/

namespace EnvLayers.Profile

open Text

/-- A line without content: empty after trimming, or a comment. -/
def isIgnored (line : List Char) : Bool := line.isEmpty || line.head? == some '#'

/-- The scope whose operations a section holds. -/
def sectionScope? (name : String) : Option Scope :=
  if name = "buildenv" then some .build
  else if name = "runenv" then some .run
  else none

/-- Records an operation in the section of a scope. -/
def record (p : Profile) (scope : Scope) (pattern : Option String) (op : Op) : Profile :=
  match scope with
  | .build => { p with buildEnv := p.buildEnv.push pattern op }
  | .run => { p with runEnv := p.runEnv.push pattern op }

/-- Where a line stands: before the first header, or under a header with or without a scope. -/
inductive Place where
  | head
  | under (scope : Option Scope)
deriving Repr, DecidableEq

/-- Reads one trimmed line at its place. -/
def readLine (origin : Option String) (number : Nat) (place : Place) (p : Profile)
    (line : List Char) : Outcome (Place × Profile) :=
  if isIgnored line then .ok (place, p)
  else
    match Line.section? line with
    | some name => .ok (.under (sectionScope? name), p)
    | none =>
      match place with
      | .head =>
        match Line.include? line with
        | some target => .ok (place, { p with includes := p.includes ++ [target] })
        | none => .ok (place, p)
      | .under none => .ok (place, p)
      | .under (some scope) =>
        match Line.definition? line with
        | some (pattern, op) => .ok (place, p.record scope pattern op)
        | none => .error (.badDefinition origin number (String.ofList line))

/-- Reads lines from the given number on, up to the first bad one. -/
def readLines (origin : Option String) (number : Nat) (place : Place) (p : Profile) :
    List (List Char) → Outcome Profile
  | [] => .ok p
  | line :: rest =>
    match readLine origin number place p (trim line) with
    | .error failure => .error failure
    | .ok (place, p) => readLines origin (number + 1) place p rest

/-- Reads the text of a profile that may come from a file. -/
def parseText (origin : Option String) (text : List Char) : Outcome Profile :=
  readLines origin 1 .head .empty (pieces '\n' text)

/-- Reads the text of a profile. Its includes are listed and not followed. -/
def parse (text : String) : Outcome Profile := parseText none text.toList

/-- The name that stands for the directory of the profile's file. -/
def directoryName : String := "$PROFILE_DIR"

/-- Reads the text of a profile file, with the directory of the file in place of its name. -/
def parseFile (path text : String) : Outcome Profile :=
  let chars :=
    match Path.parent? path with
    | some dir => replaceAll directoryName.toList dir.toList text.toList
    | none => text.toList
  parseText (some path) chars

end EnvLayers.Profile
