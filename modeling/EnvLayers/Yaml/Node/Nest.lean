import EnvLayers.Yaml.Event
import EnvLayers.Yaml.Node.Basic

/-
Module: EnvLayers.Yaml.Node.Nest
Purpose: The node that a row of events nests to. A row that stops within a collection leaves a
  broken node there.
Main exports: Frame, Node.ofEvents?
-/

namespace EnvLayers.Yaml

/-- A collection whose end has not come: what it holds so far, the last part first. In a mapping a
key waits for its value. -/
inductive Frame where
  | seq (anchor : Option Nat) (tag : Option Tag) (items : List Node)
  | map (anchor : Option Nat) (tag : Option Tag) (entries : List (Node × Node)) (key : Option Node)
deriving Repr, Inhabited

namespace Frame

/-- The collection with another part. -/
def add (n : Node) : Frame → Frame
  | .seq anchor tag items => .seq anchor tag (n :: items)
  | .map anchor tag entries none => .map anchor tag entries (some n)
  | .map anchor tag entries (some key) => .map anchor tag ((key, n) :: entries) none

/-- The whole collection. -/
def close : Frame → Node
  | .seq anchor tag items => .seq anchor tag items.reverse
  | .map anchor tag entries _ => .map anchor tag entries.reverse

/-- The collection with a broken node as its last part. -/
def cut (frame : Frame) : Node :=
  match frame with
  | .map _ _ _ none => ((frame.add .broken).add .broken).close
  | _ => (frame.add .broken).close

end Frame

namespace Node

/-- The node that the collections end up as when nothing more comes, the innermost first. -/
def cutAll : List Frame → Option Node
  | [] => none
  | [frame] => some frame.cut
  | frame :: next :: outer => cutAll (next.add frame.cut :: outer)
termination_by frames => frames.length

/-- The node that an event finishes, and the collections that are open around it. -/
def finished (frames : List Frame) : Event → Option (Node × List Frame)
  | .alias anchor => some (.alias anchor, frames)
  | .scalar anchor tag isPlain text => some (.scalar anchor tag isPlain text, frames)
  | .collectionEnd =>
    match frames with
    | [] => none
    | frame :: outer => some (frame.close, outer)
  | .sequenceStart .. | .mappingStart .. => none

/-- The node of the events that follow in open collections, the innermost first. -/
def nest (frames : List Frame) : List Event → Option Node
  | [] => cutAll frames
  | .sequenceStart anchor tag :: rest => nest (.seq anchor tag [] :: frames) rest
  | .mappingStart anchor tag :: rest => nest (.map anchor tag [] none :: frames) rest
  | event :: rest =>
    match finished frames event with
    | none => none
    | some (n, []) => some n
    | some (n, frame :: outer) => nest (frame.add n :: outer) rest

/-- The node of a document's events, if there are any. -/
def ofEvents? (events : List Event) : Option Node := nest [] events

end Node

end EnvLayers.Yaml
