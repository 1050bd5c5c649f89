/-
Module: EnvLayers.Os
Purpose: Operating systems by name, and what follows from the name: the Windows family and the
  character between the entries of a search path.
Main exports: Os, Os.ofName, Os.name, Os.isWindows, Os.pathSeparator
-/

namespace EnvLayers

/-- The operating system of a context. Names that are not known are kept as they are. -/
inductive Os where
  | linux
  | macos
  | windows
  | freeBSD
  | other (name : String)
deriving Repr, DecidableEq, Inhabited

namespace Os

/-- The operating system of a name, matched exactly. -/
def ofName (name : String) : Os :=
  if name = "Linux" then .linux
  else if name = "Macos" then .macos
  else if name = "Windows" then .windows
  else if name = "FreeBSD" then .freeBSD
  else .other name

/-- The name that an operating system is written with. -/
def name : Os → String
  | .linux => "Linux"
  | .macos => "Macos"
  | .windows => "Windows"
  | .freeBSD => "FreeBSD"
  | .other name => name

/-- Windows and its variants, whose names begin with the same word. -/
def isWindows : Os → Bool
  | .windows => true
  | .other name => "Windows".toList.isPrefixOf name.toList
  | _ => false

/-- The text between two entries of a search path. -/
def pathSeparator (os : Os) : String := if os.isWindows then ";" else ":"

/-- The text between two entries of a search path where the operating system may be unknown. -/
def pathSeparatorOf (os : Option Os) : String := (os.map pathSeparator).getD ":"

end Os

end EnvLayers
