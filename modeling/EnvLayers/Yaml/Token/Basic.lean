import EnvLayers.Yaml.Tag

/-
Module: EnvLayers.Yaml.Token.Basic
Purpose: The tokens of a YAML text.
Main exports: Token
-/

namespace EnvLayers.Yaml

/-- A token. The starts of block collections and the keys of mappings without a question mark have
no characters of their own: the layout of the text implies them. -/
inductive Token where
  | versionDirective (major minor : Nat)
  | tagDirective (handle : String) (start : Tag)
  | documentStart
  | documentEnd
  | streamEnd
  | blockSequenceStart
  | blockMappingStart
  | blockEnd
  | flowSequenceStart
  | flowSequenceEnd
  | flowMappingStart
  | flowMappingEnd
  | blockEntry
  | flowEntry
  | key
  | value
  | alias (name : String)
  | anchor (name : String)
  | tag (handle : String) (suffix : Tag)
  | scalar (isPlain : Bool) (text : String)
deriving Repr, DecidableEq, Inhabited

end EnvLayers.Yaml
