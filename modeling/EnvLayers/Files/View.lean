import EnvLayers.Files.Basic

/-
Module: EnvLayers.Files.View
Purpose: What a reader of files asks of a file system that nobody changes meanwhile, as functions of
  paths. Finitely many places have a canonical path, so that a chain of files that never meets one
  of its own files comes to an end.
Main exports: FileView, Files.view
-/

namespace EnvLayers

/-- A file system to read from. The canonical path of a path is the same for all paths that lead to
one place, and it is one of the listed places. -/
structure FileView where
  isFile : String → Bool
  canonical : String → Access String
  readText : String → Access String
  places : List String
  canonical_mem : ∀ {path place : String}, canonical path = .ok place → place ∈ places

/-- The view of a file system as it stands. -/
def Files.view (f : Files) : FileView where
  isFile := f.isFile
  canonical := f.canonical
  readText := f.readText
  places := f.places
  canonical_mem := Files.canonical_mem_places

end EnvLayers
