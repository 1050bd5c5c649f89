import EnvLayers.Files.View
import EnvLayers.Text.Cut

/-
Module: EnvLayers.Profile.Find
Purpose: Finding the file of a profile that is given by path or by name: below the home directory,
  at an absolute path, next to the profile that names it, or in the directory of shared profiles.
Main exports: ProfileSearch, ProfileSearch.find
-/

namespace EnvLayers

/-- Where profiles are looked for: the files, the home directory, and the directory of shared
profiles. -/
structure ProfileSearch where
  files : FileView
  home : Option String
  shared : Option String

namespace ProfileSearch

/-- The path that a relative name has near `base`, or near the current directory. -/
def near (base : Option String) (name : String) : String :=
  match base with
  | some base => Path.join base name
  | none => name

/-- The file of a relative name: the one near `base`, else the shared one. -/
def findRelative (s : ProfileSearch) (name : String) (base : Option String) : Outcome String :=
  if s.files.isFile (near base name) then .ok (near base name)
  else
    let shared := s.shared.getD ""
    let path := Path.join shared name
    if s.files.isFile path then .ok path else .error (.profileNotFound name shared)

/-- The path that a name stands for. -/
def resolve (s : ProfileSearch) (name : String) (base : Option String) : Outcome String :=
  match Text.dropPrefix ['~', '/'] name.toList with
  | some rest =>
    match s.home with
    | some home => .ok (Path.join home (String.ofList rest))
    | none => .error (.invalid .noHome)
  | none => if Path.isAbsolute name then .ok name else s.findRelative name base

/-- The path of the file that a name stands for. -/
def find (s : ProfileSearch) (name : String) (base : Option String) : Outcome String := do
  let path ← s.resolve name base
  if s.files.isFile path then return path else throw (.profileNotFound name path)

end ProfileSearch

end EnvLayers
