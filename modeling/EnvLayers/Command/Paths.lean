import EnvLayers.Command.Basic
import EnvLayers.Script.Basic

/-
Module: EnvLayers.Command.Paths
Purpose: The paths that a request may look at, as far as the files known so far tell. A caller that
  knows few files at first asks again until nothing is new.
Main exports: Request.paths
-/

namespace EnvLayers.Command

/-- The paths that a profile may have, given by name next to the profiles of `base`. -/
def profilePaths (h : Host) (base : Option String) (name : String) : List String :=
  match Text.dropPrefix ['~', '/'] name.toList with
  | some rest => h.home?.toList.map (Path.join · (String.ofList rest))
  | none =>
    ProfileSearch.near base name :: h.profilesDirectory?.toList.map (Path.join · name)

/-- The paths that the includes of a file may have. -/
def includePaths (h : Host) (place : Place) : Entry → List String
  | .file (some text) _ =>
    match Profile.parseFile place.path text with
    | .ok own => own.includes.flatMap (profilePaths h (Path.parent? place.path))
    | .error _ => []
  | _ => []

/-- The paths of a graph file, of profiles, and of what the known files include. -/
def Sources.paths (h : Host) (s : Sources) : List String :=
  s.graph :: (allProfileNames h s.profiles).flatMap (profilePaths h none)
    ++ h.files.entries.flatMap fun entry => includePaths h entry.1 entry.2

/-- The paths of all scripts that can be written into a directory. -/
def scriptPaths (directory start : String) : List String :=
  Scope.all.flatMap fun scope =>
    [Dialect.sh, Dialect.bat].map fun d => Path.join directory (d.fileName start scope)

/-- The paths that a request may look at. -/
def Request.paths (h : Host) : Request → List String
  | .init r => [Path.join r.directory graphFileName]
  | .display r => r.sources.paths h
  | .generate r => r.sources.paths h ++ r.directory :: scriptPaths r.directory r.start

end EnvLayers.Command
