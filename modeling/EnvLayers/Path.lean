import EnvLayers.Text.Cut

/-
Module: EnvLayers.Path
Purpose: Paths as texts with slashes: joining, the directory that holds a path, and the names that a
  walk along the path meets. Nothing here looks at a file system.
Main exports: Path.isAbsolute, Path.join, Path.ancestors, Path.parent?, Path.names
-/

namespace EnvLayers.Path

/-- A path that starts at the root. -/
def isAbsolute (path : String) : Bool := path.toList.head? == some '/'

/-- A path that ends in a slash can only stand for a directory. -/
def endsInSlash (path : String) : Bool := path.toList.getLast? == some '/'

/-- The path `rest` seen from the directory `base`. An absolute path is seen from the root, and one
slash is put between the two unless `base` is empty or ends in one. -/
def join (base rest : String) : String :=
  if isAbsolute rest then rest
  else if base = "" || endsInSlash base then base ++ rest
  else base ++ "/" ++ rest

/-- The parts of a path that say nothing: empty ones, and dots. -/
def isIdle (part : List Char) : Bool := part == [] || part == ['.']

/-- The parts without the idle ones at their end. The first part of a relative path counts even when
it is a dot. -/
def dropIdleEnd (absolute : Bool) (parts : List (List Char)) : List (List Char) :=
  match absolute, parts with
  | false, first :: rest =>
    let kept := (rest.reverse.dropWhile isIdle).reverse
    if kept.isEmpty && first.isEmpty then [] else first :: kept
  | _, parts => (parts.reverse.dropWhile isIdle).reverse

theorem length_dropIdleEnd_le (absolute : Bool) (parts : List (List Char)) :
    (dropIdleEnd absolute parts).length ≤ parts.length := by
  have hdrop : ∀ l : List (List Char), (l.reverse.dropWhile isIdle).reverse.length ≤ l.length := by
    intro l
    have h := (List.dropWhile_suffix isIdle (l := l.reverse)).length_le
    simpa using h
  unfold dropIdleEnd
  split
  · next first rest =>
    dsimp only
    split
    · simp
    · have h := hdrop rest
      simp only [List.length_cons]
      omega
  · exact hdrop _

/-- The parts of the directories that hold a path, from the nearest one outwards. -/
def holders (absolute : Bool) (parts : List (List Char)) : List (List (List Char)) :=
  if _h : dropIdleEnd absolute parts = [] then []
  else
    let rest := dropIdleEnd absolute (dropIdleEnd absolute parts).dropLast
    rest :: holders absolute rest
termination_by parts.length
decreasing_by
  have hparts := length_dropIdleEnd_le absolute parts
  have hrest := length_dropIdleEnd_le absolute (dropIdleEnd absolute parts).dropLast
  have hpos := List.length_pos_iff.mpr _h
  simp only [List.length_dropLast] at hrest
  omega

/-- The text of parts. -/
def ofParts (absolute : Bool) (parts : List (List Char)) : String :=
  let text := String.ofList (['/'].intercalate parts)
  if absolute then "/" ++ text else text

/-- The directories that hold a path, from the nearest one outwards, each without the last part of
the one before. A relative path ends in the empty one, which is where it is seen from. -/
def ancestors (path : String) : List String :=
  let absolute := isAbsolute path
  let parts := Text.pieces '/' path.toList
  (holders absolute (if absolute then parts.drop 1 else parts)).map (ofParts absolute)

/-- The directory that holds a path: the path without its last part. Neither the root nor the empty
path has one. -/
def parent? (path : String) : Option String := (ancestors path).head?

/-- The names that a walk along a path meets, dots among them. -/
def names (path : String) : List String :=
  ((Text.pieces '/' path.toList).filter (· ≠ [])).map String.ofList

end EnvLayers.Path
