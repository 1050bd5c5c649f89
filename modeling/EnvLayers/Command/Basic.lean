import EnvLayers.Command.Request
import EnvLayers.Graph.Load
import EnvLayers.Host
import EnvLayers.Profile.Load
import EnvLayers.Text.Blank
import EnvLayers.Text.Style

/-
Module: EnvLayers.Command.Basic
Purpose: What the commands have in common: how a command ends, loading the graph and the profiles,
  the choice of the consumer, and whether the terminal shows styles.
Main exports: Complaint, Report, Report.exitCode, loadSources, chooseConsumer, showsStyles
-/

namespace EnvLayers.Command

/-- Why a command did not do what it was asked for. -/
inductive Complaint where
  | failure (cause : Failure)
  | noConsumer
  | unknownFormat (name : String)
  | alreadyThere (path : String)
  | notWritten (fault : IoFault)
deriving Repr, Inhabited

namespace Complaint

/-- The main message, if its text is fixed. -/
def message? : Complaint → Option String
  | .failure cause => cause.message?
  | .noConsumer => some "No consumer given and the graph has no root"
  | .unknownFormat name =>
    some ("Unknown format '" ++ name ++ "' (expected table, yaml or json)")
  | .alreadyThere path => some (graphFileName ++ " already exists at " ++ Text.Quoted.quote path)
  | .notWritten fault => some ("Failed to write " ++ graphFileName ++ ": " ++ fault.message)

/-- The diagnostic code, which only a failure of the library has. -/
def code? : Complaint → Option String
  | .failure cause => some cause.code
  | _ => none

/-- What the user can do about it. -/
def help : Complaint → Option String
  | .failure cause => cause.help
  | .noConsumer => some "Pass a consumer id or set 'root' in the graph file"
  | _ => none

end Complaint

/-- The result of a step of a command. -/
abbrev Attempt (α : Type) := Except Complaint α

/-- A step of the library as a step of a command. -/
def attempt {α : Type} (o : Outcome α) : Attempt α := o.mapError .failure

/-- How a command ended. A question for help is answered by whoever runs the command. -/
inductive Ending where
  | done
  | help
  | usage
  | failed (complaint : Complaint)
deriving Repr, Inhabited

/-- What a command leaves behind: its output, the files as they are then, and how it ended. -/
structure Report where
  output : String
  files : Files
  ending : Ending
deriving Repr, Inhabited

/-- The number that tells the caller how the command ended. -/
def Report.exitCode (r : Report) : Nat :=
  match r.ending with
  | .done | .help => 0
  | .failed _ => 1
  | .usage => 2

/-- The variable that names profiles below those of the options. -/
def profileVariable : String := "DEPENV_PROFILE"

/-- The names between the colons of a list. Blank ones do not count. -/
def listedNames (list : String) : List String :=
  ((Text.pieces ':' list.toList).map Text.trim).filter (· ≠ []) |>.map String.ofList

/-- The names of all profiles, those of the variable before those of the options. -/
def allProfileNames (h : Host) (given : List String) : List String :=
  ((h.setting? profileVariable).elim [] listedNames) ++ given

/-- The profile that a name stands for. -/
def loadProfile (h : Host) (name : String) : Outcome Profile := do
  Profile.load h.profileSearch (← h.profileSearch.find name none)

/-- The graph and the profiles in the order of their precedence. -/
def loadSources (h : Host) (s : Sources) : Outcome (Graph × List Profile) := do
  let g ← Graph.load h.files.view s.graph
  let profiles ← (allProfileNames h s.profiles).mapM (loadProfile h)
  return (g, profiles)

/-- The consumer: the one that is named, else the root. It has to be declared. -/
def chooseConsumer (g : Graph) (named : Option String) : Attempt String := do
  match named.or g.root with
  | none => throw .noConsumer
  | some id =>
    let _ ← attempt (g.node id)
    return id

/-- Styles are shown where they are forced, by a variable with any value but zero. -/
def showsStyles (h : Host) : Bool := (h.setting? "CLICOLOR_FORCE").any (· ≠ "0")

/-- Paints where styles are shown. -/
def paint (h : Host) : Text.Style → String → String := Text.Style.paint (showsStyles h)

end EnvLayers.Command
