import EnvLayers.Failure
import EnvLayers.Lookup
import EnvLayers.Path

/-
Module: EnvLayers.Files.Basic
Purpose: File systems as values: what stands at each place, how a path leads to a place, and the
  changes that a program can make. Every refusal has its cause, and the first one on the way wins.
Main exports: Entry, Files, Files.find, Files.isFile, Files.canonical, Files.readText, Files.write,
  Files.createDirectory, Files.createDirectories, Files.makeExecutable
-/

namespace EnvLayers

/-- What stands at a place: a directory, or a file, whose content need not be text and which may be
run. -/
inductive Entry where
  | directory
  | file (text : Option String) (executable : Bool)
deriving Repr, DecidableEq, Inhabited

/-- A place: the names that lead to it from the root. -/
abbrev Place := List String

/-- The path of a place without dots and without slashes that say nothing. -/
def Place.path (place : Place) : String := "/" ++ "/".intercalate place

/-- The result of an access to a file system. -/
abbrev Access (α : Type) := Except IoFault α

/-- A file system: what stands at the places below the root, which is a directory, and the place
that relative paths start from. -/
structure Files where
  entries : List (Place × Entry)
  current : Place
deriving Repr, DecidableEq, Inhabited

namespace Files

/-- What stands at a place. -/
def entry? (f : Files) (place : Place) : Option Entry :=
  if place = [] then some .directory else f.entries.lookup place

/-- Puts an entry at a place, in place of what stands there. -/
def put (f : Files) (place : Place) (entry : Entry) : Files :=
  { f with entries := (place, entry) :: f.entries.filter (·.1 ≠ place) }

/-- The greatest size of a name and of a path, both in bytes. -/
def nameLimit : Nat := 255

def pathLimit : Nat := 4095

/-- A path can be followed at all. -/
def checkPath (path : String) : Access Unit :=
  if path.toList.contains '\x00' then .error .badName
  else if path = "" then .error .notFound
  else if pathLimit < path.utf8ByteSize then .error .nameTooLong
  else .ok ()

/-- There is a directory at a place. -/
def checkDirectory (f : Files) (place : Place) : Access Unit :=
  match f.entry? place with
  | some .directory => .ok ()
  | some (.file ..) => .error .notDirectory
  | none => .error .notFound

/-- A name short enough to be looked up. -/
def checkName (name : String) : Access Unit :=
  if nameLimit < name.utf8ByteSize then .error .nameTooLong else .ok ()

/-- Follows one name from a directory. -/
def step (f : Files) (place : Place) (name : String) : Access Place := do
  f.checkDirectory place
  if name = "." then return place
  else if name = ".." then return place.dropLast
  else
    checkName name
    if (f.entry? (place ++ [name])).isSome then return place ++ [name] else throw .notFound

/-- The place that a path starts from. -/
def start (f : Files) (path : String) : Place := if Path.isAbsolute path then [] else f.current

/-- The place that a path leads to, and what stands there. -/
def find (f : Files) (path : String) : Access (Place × Entry) := do
  checkPath path
  let place ← (Path.names path).foldlM f.step (f.start path)
  match f.entry? place with
  | none => throw .notFound
  | some entry =>
    if Path.endsInSlash path && entry != .directory then throw .notDirectory
    else return (place, entry)

/-- A path leads to a file. -/
def isFile (f : Files) (path : String) : Bool :=
  match f.find path with
  | .ok (_, .file ..) => true
  | _ => false

/-- A path leads to a directory. -/
def isDirectory (f : Files) (path : String) : Bool :=
  match f.find path with
  | .ok (_, .directory) => true
  | _ => false

/-- A path leads somewhere. -/
def isPresent (f : Files) (path : String) : Bool := (f.find path).toOption.isSome

/-- The path without dots of the place that a path leads to. -/
def canonical (f : Files) (path : String) : Access String := do
  let (place, _) ← f.find path
  return place.path

/-- The paths of all places at which something stands. -/
def places (f : Files) : List String := "/" :: f.entries.map fun entry => Place.path entry.1

theorem path_mem_places {f : Files} {place : Place} {entry : Entry}
    (h : f.entry? place = some entry) : place.path ∈ f.places := by
  unfold entry? at h
  split at h
  · next hroot => simp [hroot, places, Place.path]
  · exact List.mem_cons_of_mem _ (List.mem_map.mpr ⟨_, mem_of_lookup h, rfl⟩)

theorem entry?_of_find {f : Files} {path : String} {place : Place} {entry : Entry}
    (h : f.find path = .ok (place, entry)) : f.entry? place = some entry := by
  simp only [find, bind, Except.bind, throw, throwThe, MonadExceptOf.throw] at h
  split at h
  · simp at h
  split at h
  · simp at h
  split at h
  · simp at h
  · next hentry =>
    split at h
    · simp at h
    · simp only [pure, Except.pure, Except.ok.injEq, Prod.mk.injEq] at h
      rw [← h.1, ← h.2, hentry]

theorem canonical_mem_places {f : Files} {path place : String} (h : f.canonical path = .ok place) :
    place ∈ f.places := by
  simp only [canonical, bind, Except.bind, pure, Except.pure] at h
  split at h
  · simp at h
  · next found hfound =>
    simp only [Except.ok.injEq] at h
    exact h ▸ path_mem_places (entry?_of_find hfound)

/-- The text of the file that a path leads to. -/
def readText (f : Files) (path : String) : Access String := do
  match (← f.find path).2 with
  | .directory => throw .isDirectory
  | .file none _ => throw .notText
  | .file (some text) _ => return text

/-- The place that a path names for something new, in a directory that is there. A path that ends in
dots, or is the root, names none. -/
def slot? (f : Files) (path : String) : Access (Option Place) := do
  checkPath path
  let names := Path.names path
  let place ← names.dropLast.foldlM f.step (f.start path)
  f.checkDirectory place
  match names.getLast? with
  | none => return none
  | some name =>
    if name = "." || name = ".." then return none
    else
      checkName name
      return some (place ++ [name])

/-- Makes a directory where nothing stands. -/
def createDirectory (f : Files) (path : String) : Access Files := do
  match ← f.slot? path with
  | none => throw .alreadyExists
  | some place =>
    if (f.entry? place).isSome then throw .alreadyExists else return f.put place .directory

/-- Makes the first of some directories, each of which holds the one before. Those that are missing
on the way to it are made first. -/
def createAlong (f : Files) : List String → Access Files
  | [] => .error .notFound
  | path :: outer =>
    if path = "" then .ok f
    else
      match f.createDirectory path with
      | .ok f => .ok f
      | .error .notFound => do
        let f ← createAlong f outer
        match f.createDirectory path with
        | .ok f => return f
        | .error fault => if f.isDirectory path then return f else throw fault
      | .error fault => if f.isDirectory path then .ok f else .error fault

/-- Makes a directory with all directories that hold it. Those that are there already stay. -/
def createDirectories (f : Files) (path : String) : Access Files :=
  f.createAlong (path :: Path.ancestors path)

/-- Gives a file its text. A file that was there stays as executable as it was. -/
def write (f : Files) (path text : String) : Access Files := do
  match ← f.slot? path with
  | none => throw .isDirectory
  | some place =>
    if Path.endsInSlash path then throw .isDirectory
    else
      match f.entry? place with
      | some .directory => throw .isDirectory
      | some (.file _ executable) => return f.put place (.file (some text) executable)
      | none => return f.put place (.file (some text) false)

/-- Allows to run a file. -/
def makeExecutable (f : Files) (path : String) : Access Files := do
  match ← f.find path with
  | (place, .file text _) => return f.put place (.file text true)
  | (_, .directory) => return f

end Files

end EnvLayers
