import EnvLayers.Text.Cut

/-
Module: EnvLayers.Command.Option
Purpose: Reading the arguments of a command from left to right: options by long name or by letter,
  their values, and operands. The first argument that does not fit, or that asks for help, ends the
  reading.
Main exports: OptionKind, OptionSpec, CommandSpec, Stop, Given, CommandSpec.read
-/

namespace EnvLayers.Command

/-- What an option takes, and how often it may be given. -/
inductive OptionKind where
  | flag
  | counted
  | single
  | repeated
  | help
  | version
deriving Repr, DecidableEq, Inhabited

/-- A value follows an option of this kind. -/
def OptionKind.takesValue : OptionKind → Bool
  | .single | .repeated => true
  | .flag | .counted | .help | .version => false

/-- An option of this kind may be given several times. -/
def OptionKind.mayRepeat : OptionKind → Bool
  | .counted | .repeated => true
  | .flag | .single | .help | .version => false

/-- An option: its long name, its letter if it has one, its kind, and the values that fit. -/
structure OptionSpec where
  name : String
  letter : Option Char
  kind : OptionKind
  fits : String → Bool

/-- What a command can be given: options, and one operand or none. -/
structure CommandSpec where
  options : List OptionSpec
  operand : Option (String → Bool)

/-- Why the reading ended early: arguments that do not fit, or a question about the program. -/
inductive Stop where
  | usage
  | help
  | version
deriving Repr, DecidableEq, Inhabited

/-- The result of reading arguments. -/
abbrev Reading (α : Type) := Except Stop α

/-- The options that were given with their values, in order, and the operand. A value is empty for
an option that takes none. -/
structure Given where
  options : List (String × String)
  operand : Option String
deriving Repr, DecidableEq, Inhabited

namespace Given

def empty : Given := ⟨[], none⟩

/-- The values of an option in order. -/
def values (g : Given) (name : String) : List String :=
  (g.options.filter (·.1 = name)).map (·.2)

/-- The value of an option that is given at most once. -/
def value? (g : Given) (name : String) : Option String := g.options.lookup name

end Given

/-- An argument of the form of an option. A single dash is not one. -/
def isOption : List Char → Bool
  | ['-'] => false
  | '-' :: _ => true
  | _ => false

namespace CommandSpec

/-- The option of a long name. -/
def byName (spec : CommandSpec) (name : List Char) : Reading OptionSpec :=
  match spec.options.find? fun o => o.name.toList = name with
  | some o => .ok o
  | none => .error .usage

/-- The option of a letter. -/
def byLetter (spec : CommandSpec) (letter : Char) : Reading OptionSpec :=
  match spec.options.find? fun o => o.letter = some letter with
  | some o => .ok o
  | none => .error .usage

end CommandSpec

namespace Given

/-- Takes note of an option with its value. -/
def record (g : Given) (o : OptionSpec) (value : String) : Reading Given :=
  match o.kind with
  | .help => .error .help
  | .version => .error .version
  | _ =>
    if !o.kind.mayRepeat && (g.value? o.name).isSome then .error .usage
    else if !o.fits value then .error .usage
    else .ok { g with options := g.options ++ [(o.name, value)] }

/-- Takes note of the operand. -/
def recordOperand (g : Given) (spec : CommandSpec) (text : String) : Reading Given :=
  match spec.operand, g.operand with
  | some fits, none => if fits text then .ok { g with operand := some text } else .error .usage
  | _, _ => .error .usage

end Given

namespace CommandSpec

/-- Reads an option by its long name. The result also holds the option when its value has to follow.
-/
def readLong (spec : CommandSpec) (g : Given) (text : List Char) :
    Reading (Given × Option OptionSpec) := do
  match Text.cutFirst '=' text with
  | some (name, value) =>
    let o ← spec.byName name
    if o.kind.takesValue then return (← g.record o (String.ofList value), none)
    else throw .usage
  | none =>
    let o ← spec.byName text
    if o.kind.takesValue then return (g, some o) else return (← g.record o "", none)

/-- Reads options by their letters. What follows the letter of an option that takes a value is the
value, with or without an equals sign before it. -/
def readLetters (spec : CommandSpec) (g : Given) : List Char → Reading (Given × Option OptionSpec)
  | [] => .ok (g, none)
  | letter :: rest => do
    let o ← spec.byLetter letter
    if o.kind.takesValue then
      match rest with
      | [] => return (g, some o)
      | '=' :: value => return (← g.record o (String.ofList value), none)
      | value => return (← g.record o (String.ofList value), none)
    else readLetters spec (← g.record o "") rest

/-- Reads an argument of the form of an option. -/
def readOption (spec : CommandSpec) (g : Given) (text : List Char) :
    Reading (Given × Option OptionSpec) :=
  match text with
  | '-' :: '-' :: rest => spec.readLong g rest
  | _ => spec.readLetters g (text.drop 1)

/-- Reads arguments that are operands whatever they look like. -/
def readOperands (spec : CommandSpec) (g : Given) (args : List String) : Reading Given :=
  args.foldlM (fun g text => g.recordOperand spec text) g

/-- Reads arguments, the first of which is the value of an option that waits for one. An argument of
the form of an option is not a value. -/
def readFrom (spec : CommandSpec) (g : Given) (waiting : Option OptionSpec) :
    List String → Reading Given
  | [] => if waiting.isSome then .error .usage else .ok g
  | text :: rest =>
    match waiting with
    | some o =>
      if isOption text.toList then .error .usage
      else do readFrom spec (← g.record o text) none rest
    | none =>
      if text = "--" then spec.readOperands g rest
      else if isOption text.toList then do
        let (g, waiting) ← spec.readOption g text.toList
        readFrom spec g waiting rest
      else do readFrom spec (← g.recordOperand spec text) none rest

/-- Reads the arguments of a command. -/
def read (spec : CommandSpec) (args : List String) : Reading Given := spec.readFrom .empty none args

end CommandSpec

end EnvLayers.Command
