import EnvLayers.Profile.Find
import EnvLayers.Profile.Parse

/-
Module: EnvLayers.Profile.Load
Purpose: Loading a profile with everything that it includes. The files form a tree, which is layered
  in depth-first order with the included files below the one that names them; a file that includes
  itself over a chain of others is refused.
Main exports: Profile.readOwn, Profile.load
-/

namespace EnvLayers.Profile

/-- The places that are on no chain of includes yet. -/
def unseen (files : FileView) (chain : List String) : List String :=
  files.places.filter (· ∉ chain)

theorem length_unseen_lt {files : FileView} {chain : List String} {path place : String}
    (hplace : files.canonical path = .ok place) (hnew : place ∉ chain) :
    (unseen files (place :: chain)).length < (unseen files chain).length := by
  have hmem := files.canonical_mem hplace
  have hsub : unseen files (place :: chain) = (unseen files chain).filter (· ≠ place) := by
    simp only [unseen, List.filter_filter]
    congr 1
    funext other
    simp [not_or]
  rw [hsub]
  refine List.length_filter_lt_length_iff_exists.mpr ⟨place, ?_, by simp⟩
  simpa [unseen] using ⟨hmem, hnew⟩

/-- What the file at a canonical path declares itself. -/
def readOwn (files : FileView) (place : String) : Outcome Profile :=
  match files.readText place with
  | .error _ => .error (.readFailed place)
  | .ok text => parseFile place text

/-- The profile of a file without its includes. -/
def alone (place : String) (own : Profile) : Profile :=
  { own with includes := [], sourceFiles := [place] }

/-- Loads the profile at a path that the files of `chain` led to, each including the next. -/
def loadBelow (s : ProfileSearch) (chain : List String) (path : String) : Outcome Profile :=
  match _hplace : s.files.canonical path with
  | .error _ => .error (.readFailed path)
  | .ok place =>
    if _hnew : place ∈ chain then .error (.circularInclude place)
    else do
      let own ← readOwn s.files place
      let included ← own.includes.mapM fun name => do
        let target ← s.find name (Path.parent? place)
        loadBelow s (place :: chain) target
      return compose (included ++ [alone place own])
termination_by (unseen s.files chain).length
decreasing_by exact length_unseen_lt _hplace _hnew

/-- Loads the profile at a path with everything that it includes. -/
def load (s : ProfileSearch) (path : String) : Outcome Profile := loadBelow s [] path

end EnvLayers.Profile
