import EnvLayers.Command.Paths
import EnvLayers.Command.Run

/-
Module: EnvLayers.Main
Purpose: The program on a real system: it takes a picture of the files that a request may look at,
  runs the request on the picture, and makes the changes that the result shows. A link is seen as
  what it leads to.
Main exports: main
-/

namespace EnvLayers.Main

/-- The variables that the program looks at. -/
def settingNames : List String :=
  ["HOME", "DEPENV_HOME", "DEPENV_GRAPH", "DEPENV_PROFILE", "CLICOLOR_FORCE"]

/-- What really stands at a place. -/
def look (place : Place) : IO (Option Entry) := do
  let path := (← IO.currentDir) / place.path
  if ← path.isDir then return some .directory
  match ← (IO.FS.readBinFile path).toBaseIO with
  | .ok bytes => return some (.file (String.fromUTF8? bytes) false)
  | .error _ => return none

/-- The place that a name leads to from another one. -/
def follow (place : Place) (name : String) : Place :=
  if name = "." then place
  else if name = ".." then place.dropLast
  else place ++ [name]

/-- Adds a place to the picture, if something stands there. -/
def addPlace (f : Files) (place : Place) : IO Files := do
  if (f.entry? place).isSome then return f
  match ← look place with
  | some entry => return f.put place entry
  | none => return f

/-- Adds all places on the way along a path. -/
def addPath (f : Files) (path : String) : IO Files := do
  let step := fun ((f, place) : Files × Place) (name : String) => do
    let next := follow place name
    return (← addPlace f next, next)
  let (f, _) ← (Path.names path).foldlM step (f, f.start path)
  return f

/-- Adds what a request may look at, until nothing is new. -/
partial def complete (h : Host) (request : Command.Request) : IO Host := do
  let files ← (request.paths h).foldlM addPath h.files
  let next := { h with files := files }
  if files.entries.length = h.files.entries.length then return next
  else complete next request

/-- The picture that a run starts from. -/
def picture (args : List String) : IO Host := do
  let current := toString (← IO.currentDir)
  let files ← addPath ⟨[], Path.names current⟩ current
  let settings ← settingNames.filterMapM fun name => do
    return (← IO.getEnv name).map fun value => (name, value)
  let h : Host := ⟨files, settings⟩
  match Command.Request.read h.setting? args with
  | .ok request => complete h request
  | .error _ => return h

/-- Makes one entry of the picture real. -/
def realize (place : Place) (entry : Entry) : IO Unit := do
  match entry with
  | .directory => IO.FS.createDirAll place.path
  | .file text executable =>
    IO.FS.writeFile place.path (text.getD "")
    if executable then
      let right : IO.AccessRight := ⟨true, false, true⟩
      IO.setAccessRights place.path ⟨⟨true, true, true⟩, right, right⟩

/-- Makes the changes between two pictures, directories before what they hold. -/
def realizeChanges (before after : Files) : IO Unit := do
  let changed := after.entries.filter fun (place, entry) => before.entry? place != some entry
  for (place, entry) in changed.mergeSort fun a b => a.1.length ≤ b.1.length do
    realize place entry

/-- Tells why a command did not do what it was asked for. -/
def complain (complaint : Command.Complaint) : IO Unit := do
  if let some code := complaint.code? then IO.eprintln code
  IO.eprintln ("Error: " ++ complaint.message?.getD "Invalid graph file")
  if let some help := complaint.help then IO.eprintln ("help: " ++ help)

/-- How the program is used. -/
def usage : String := "usage: depenv [-v] [-q] init|show|generate [arguments]"

/-- Runs the program. -/
def run (args : List String) : IO UInt32 := do
  let h ← picture args
  let report := Command.run h args
  realizeChanges h.files report.files
  IO.print report.output
  match report.ending with
  | .done => pure ()
  | .help => IO.println usage
  | .usage => IO.eprintln usage
  | .failed complaint => complain complaint
  return report.exitCode.toUInt32

end EnvLayers.Main

/-- The program. -/
def main (args : List String) : IO UInt32 := EnvLayers.Main.run args
