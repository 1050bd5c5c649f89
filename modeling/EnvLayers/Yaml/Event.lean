import EnvLayers.Yaml.Tag

/-
Module: EnvLayers.Yaml.Event
Purpose: The document that a text begins with, as a row of events: one for a scalar or an alias, and
  two for a collection, at its start and at its end. An anchor is a number here, and an alias refers
  to a node by it.
Main exports: Event, Document
-/

namespace EnvLayers.Yaml

/-- An event. A scalar without quotes is told apart because its text gives it a kind. -/
inductive Event where
  | alias (anchor : Nat)
  | scalar (anchor : Option Nat) (tag : Option Tag) (isPlain : Bool) (text : String)
  | sequenceStart (anchor : Option Nat) (tag : Option Tag)
  | mappingStart (anchor : Option Nat) (tag : Option Tag)
  | collectionEnd
deriving Repr, DecidableEq, Inhabited

/-- What stands behind the events of a document: a place where the text cannot be read on, more than
marks between documents, or nothing. -/
inductive Ending where
  | broken
  | more
  | last
deriving Repr, DecidableEq, Inhabited

/-- A document. An empty text holds one without events. -/
structure Document where
  events : List Event
  ending : Ending
deriving Repr, DecidableEq, Inhabited

end EnvLayers.Yaml
