import EnvLayers.Command.Option
import EnvLayers.Scope

/-
Module: EnvLayers.Command.Request
Purpose: What the program can be asked for, and how the arguments ask for it.
Main exports: Sources, InitRequest, DisplayRequest, GenerateRequest, Request, Request.read
-/

namespace EnvLayers.Command

/-- Where the environment comes from: the graph file, and the profiles named by options. -/
structure Sources where
  graph : String
  profiles : List String
deriving Repr, DecidableEq, Inhabited

/-- The wish for a new graph file in a directory. -/
structure InitRequest where
  directory : String
  root : String
  requires : List String
  template : String
deriving Repr, DecidableEq, Inhabited

/-- The wish to see the environment of a consumer, or of the root when none is named. -/
structure DisplayRequest where
  consumer : Option String
  scope : Scope
  format : String
  sources : Sources
deriving Repr, DecidableEq, Inhabited

/-- The wish for scripts of a consumer, or of the root when none is named, in every scope unless one
is chosen. -/
structure GenerateRequest where
  consumer : Option String
  scope : Option Scope
  directory : String
  start : String
  sources : Sources
deriving Repr, DecidableEq, Inhabited

/-- What the program is asked for. -/
inductive Request where
  | init (request : InitRequest)
  | display (request : DisplayRequest)
  | generate (request : GenerateRequest)
deriving Repr, DecidableEq, Inhabited

/-- Every text fits. -/
def anyText (_ : String) : Bool := true

/-- A path is not empty. -/
def isPath (text : String) : Bool := text ≠ ""

/-- A text that names a scope. -/
def isScope (text : String) : Bool := (Scope.parse text).toOption.isSome

/-- The options that every command takes. -/
def commonOptions : List OptionSpec :=
  [⟨"verbose", some 'v', .counted, anyText⟩,
   ⟨"quiet", some 'q', .flag, anyText⟩,
   ⟨"help", some 'h', .help, anyText⟩]

/-- The options that say where the environment comes from. -/
def sourceOptions : List OptionSpec :=
  [⟨"scope", some 's', .single, isScope⟩,
   ⟨"graph", some 'g', .single, isPath⟩,
   ⟨"profile", some 'p', .repeated, anyText⟩]

/-- The arguments before the name of the command. -/
def programSpec : CommandSpec :=
  ⟨⟨"version", some 'V', .version, anyText⟩ :: commonOptions, none⟩

def initSpec : CommandSpec :=
  ⟨[⟨"root", none, .single, anyText⟩,
    ⟨"requires", none, .repeated, anyText⟩,
    ⟨"template", none, .single, anyText⟩] ++ commonOptions,
   some isPath⟩

def displaySpec : CommandSpec :=
  ⟨⟨"format", none, .single, anyText⟩ :: (sourceOptions ++ commonOptions), some anyText⟩

def generateSpec : CommandSpec :=
  ⟨[⟨"output", some 'o', .single, isPath⟩,
    ⟨"prefix", none, .single, anyText⟩] ++ sourceOptions ++ commonOptions,
   some anyText⟩

/-- The variable that names the graph file where no option does. -/
def graphVariable : String := "DEPENV_GRAPH"

/-- The name of a graph file that nobody names. -/
def graphFileName : String := "depenv.yaml"

/-- The path of the graph file: the one of the option, else the one of the variable, else the usual
one. -/
def graphPath (setting : String → Option String) (g : Given) : Reading String :=
  match g.value? "graph", setting graphVariable with
  | some path, _ => .ok path
  | none, some path => if isPath path then .ok path else .error .usage
  | none, none => .ok graphFileName

def sources (setting : String → Option String) (g : Given) : Reading Sources := do
  return ⟨← graphPath setting g, g.values "profile"⟩

/-- The scope of the option, if it is given. -/
def scope? (g : Given) : Option Scope :=
  (g.value? "scope").bind fun text => (Scope.parse text).toOption

def readInit (args : List String) : Reading Request := do
  let g ← initSpec.read args
  return .init
    { directory := g.operand.getD ".", root := (g.value? "root").getD "app"
      requires := g.values "requires", template := (g.value? "template").getD "standard" }

def readDisplay (setting : String → Option String) (args : List String) : Reading Request := do
  let g ← displaySpec.read args
  return .display
    { consumer := g.operand, scope := (scope? g).getD .run
      format := (g.value? "format").getD "table", sources := ← sources setting g }

def readGenerate (setting : String → Option String) (args : List String) : Reading Request := do
  let g ← generateSpec.read args
  return .generate
    { consumer := g.operand, scope := scope? g, directory := (g.value? "output").getD "."
      start := (g.value? "prefix").getD "depenv", sources := ← sources setting g }

/-- The names of the commands, the one that explains the others included. -/
def commandNames : List String := ["init", "show", "generate", "help"]

/-- Reads what help is wanted for: the program, or one of its commands. -/
def readHelp : List String → Reading Request
  | [] => .error .help
  | [name] => if name ∈ commandNames then .error .help else .error .usage
  | _ => .error .usage

/-- Reads a command by its name and the arguments behind the name. -/
def readCommand (setting : String → Option String) (name : String) (args : List String) :
    Reading Request :=
  if name = "init" then readInit args
  else if name = "show" then readDisplay setting args
  else if name = "generate" then readGenerate setting args
  else if name = "help" then readHelp args
  else .error .usage

/-- Reads options of the program up to the name of the command, and the command. -/
def readProgram (setting : String → Option String) (g : Given) : List String → Reading Request
  | [] => .error .usage
  | text :: rest =>
    if text = "--" then .error .usage
    else if isOption text.toList then do
      let (g, _) ← programSpec.readOption g text.toList
      readProgram setting g rest
    else readCommand setting text rest

/-- Reads the arguments of the program. `setting` looks up a variable of the program's own
environment. -/
def Request.read (setting : String → Option String) (args : List String) : Reading Request :=
  readProgram setting .empty args

end EnvLayers.Command
