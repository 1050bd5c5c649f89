import EnvLayers.Datum.Decode

/-
Module: EnvLayers.Failure
Purpose: The causes for which an operation of this library fails, with the message, the diagnostic
  code and the advice that each is reported with.
Main exports: IoFault, Failure, Failure.message?, Failure.code, Failure.help
-/

namespace EnvLayers

/-- Why the file system refused an operation. -/
inductive IoFault where
  | notFound
  | alreadyExists
  | notDirectory
  | isDirectory
  | nameTooLong
  | badName
  | notText
deriving Repr, DecidableEq, Inhabited

/-- The wording of the system for a refused operation, with its number. -/
def IoFault.message : IoFault → String
  | .notFound => "No such file or directory (os error 2)"
  | .alreadyExists => "File exists (os error 17)"
  | .notDirectory => "Not a directory (os error 20)"
  | .isDirectory => "Is a directory (os error 21)"
  | .nameTooLong => "File name too long (os error 36)"
  | .badName => "file name contained an unexpected NUL byte"
  | .notText => "stream did not contain valid UTF-8"

/-- What makes an input invalid although it could be read. -/
inductive Invalid where
  | variableName (name node : String)
  | scope (text : String)
  | noHome
deriving Repr, DecidableEq, Inhabited

def Invalid.message : Invalid → String
  | .variableName name node =>
    "Invalid environment variable name '" ++ name ++ "' in node '" ++ node ++ "'"
  | .scope text => "Unknown scope '" ++ text ++ "' (expected 'build' or 'run')"
  | .noHome => "Cannot resolve ~ without HOME"

/-- Why an operation failed. -/
inductive Failure where
  | invalidDocument (fault : DocumentFault)
  | readFailed (path : String)
  | profileNotFound (name searched : String)
  | circularInclude (path : String)
  | badDefinition (origin : Option String) (lineNumber : Nat) (line : String)
  | unknownNode (id : String) (similar : List String)
  | duplicateNode (id : String)
  | cyclicDependency (nodes : List String)
  | invalid (reason : Invalid)
  | io (fault : IoFault)
deriving Repr, Inhabited

namespace Failure

/-- The main message. A graph file that cannot be read at all has none that is fixed. -/
def message? : Failure → Option String
  | .invalidDocument fault => fault.message?.map ("Invalid graph file: " ++ ·)
  | .readFailed path => some ("Failed to read file: " ++ Text.Quoted.quote path)
  | .profileNotFound name _ => some ("Profile not found: " ++ name)
  | .circularInclude path =>
    some ("Circular profile include detected: " ++ Text.Quoted.quote path)
  | .badDefinition origin lineNumber line =>
    some ("Bad env definition in " ++ origin.getD "<text>" ++ ":" ++ toString lineNumber ++ ": "
      ++ line)
  | .unknownNode id _ => some ("Unknown node: " ++ id)
  | .duplicateNode id => some ("Duplicate node id: " ++ id)
  | .cyclicDependency nodes => some ("Cyclic dependency among: " ++ ", ".intercalate nodes)
  | .invalid reason => some ("Validation failed: " ++ reason.message)
  | .io fault => some fault.message

/-- The diagnostic code. -/
def code : Failure → String
  | .invalidDocument _ => "depenv::invalid_yaml"
  | .readFailed _ => "depenv::read_failed"
  | .profileNotFound .. => "depenv::profile_not_found"
  | .circularInclude _ => "depenv::circular_include"
  | .badDefinition .. => "depenv::bad_env_definition"
  | .unknownNode .. => "depenv::unknown_node"
  | .duplicateNode _ => "depenv::duplicate_node"
  | .cyclicDependency _ => "depenv::cyclic_dependency"
  | .invalid _ => "depenv::validation_failed"
  | .io _ => "depenv::io_error"

/-- What the user can do about it. -/
def help : Failure → Option String
  | .invalidDocument _ => some "Check YAML syntax and ensure 'api: depenv/v0' is present"
  | .profileNotFound _ searched =>
    some ("Pass a path to the profile or place it in the profiles directory (" ++ searched ++ ")")
  | .circularInclude _ => some "Remove the circular reference in your include() lines"
  | .badDefinition .. =>
    some ("Use NAME=value, NAME+=value, NAME=+value or NAME=! (optionally prefixed with "
      ++ "'pattern:')")
  | .unknownNode _ [] => some "Check that every requirement names a declared node id"
  | .unknownNode _ similar =>
    some ("Did you mean one of: " ++ ", ".intercalate similar ++ "?")
  | .duplicateNode _ => some "Give each node a unique 'id' (it defaults to the node name)"
  | .readFailed _ | .cyclicDependency _ | .invalid _ | .io _ => none

end Failure

/-- The result of an operation that can fail. -/
abbrev Outcome (α : Type) := Except Failure α

end EnvLayers
