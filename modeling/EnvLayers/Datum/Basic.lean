import EnvLayers.Number.Binary64
import EnvLayers.Text.Quoted

/-
Module: EnvLayers.Datum.Basic
Purpose: Structured values, what a document holds once its text has been read: scalars with a kind,
  sequences, mappings with keys of any kind, and values under a tag.
Main exports: Datum, Datum.same, Datum.untag, Datum.hasTag, Datum.Wording, Datum.describe
-/

namespace EnvLayers

open Number (Binary64)

/-- A structured value. -/
inductive Datum where
  | null
  | bool (value : Bool)
  | int (value : Int)
  | float (value : Binary64)
  | text (value : String)
  | seq (items : List Datum)
  | map (entries : List (Datum × Datum))
  | tagged (tag : String) (content : Datum)
deriving Repr, Inhabited

namespace Datum

/-- A tag without the exclamation mark in front of it. A mark that stands alone is a tag itself. -/
def tagName (tag : String) : String :=
  match tag.toList with
  | '!' :: c :: rest => String.ofList (c :: rest)
  | _ => tag

mutual

/-- Two values are the same as keys of a mapping: kinds differ, the order of a mapping's entries
does not count, and floating point numbers are compared as numbers. -/
def same : Datum → Datum → Bool
  | .null, .null => true
  | .bool a, .bool b => a == b
  | .int a, .int b => a == b
  | .float a, .float b => a.same b
  | .text a, .text b => a == b
  | .seq xs, .seq ys => sameItems xs ys
  | .map xs, .map ys => xs.length == ys.length && sameEntries xs ys
  | .tagged s a, .tagged t b => tagName s == tagName t && same a b
  | _, _ => false

def sameItems : List Datum → List Datum → Bool
  | [], [] => true
  | x :: xs, y :: ys => same x y && sameItems xs ys
  | _, _ => false

/-- Every entry of the first mapping is found in the second. -/
def sameEntries : List (Datum × Datum) → List (Datum × Datum) → Bool
  | [], _ => true
  | (k, v) :: rest, ys => ys.any (fun e => same k e.1 && same v e.2) && sameEntries rest ys

end

/-- The value under all its tags. -/
def untag : Datum → Datum
  | .tagged _ content => content.untag
  | d => d

mutual

/-- A tag stands on the value or somewhere inside it. -/
def hasTag : Datum → Bool
  | .seq items => itemsHaveTag items
  | .map entries => entriesHaveTag entries
  | .tagged _ _ => true
  | _ => false

def itemsHaveTag : List Datum → Bool
  | [] => false
  | d :: rest => hasTag d || itemsHaveTag rest

def entriesHaveTag : List (Datum × Datum) → Bool
  | [] => false
  | (k, v) :: rest => hasTag k || hasTag v || entriesHaveTag rest

end

/-- What differs between the formats of documents when a message names a value: the word for null,
and the numbers that are written without an exponent, by the power of ten of the first digit. -/
structure Wording where
  nullName : String
  isPositional : Int → Bool

/-- Messages about YAML write all numbers without an exponent. -/
def Wording.yaml : Wording := ⟨"unit value", fun _ => true⟩

/-- Messages about JSON write very large and very small numbers with an exponent. -/
def Wording.json : Wording := ⟨"null", fun order => -5 ≤ order && order ≤ 15⟩

/-- How a message names a value. -/
def describe (wording : Wording) : Datum → String
  | .null => wording.nullName
  | .bool b => "boolean `" ++ (if b then "true" else "false") ++ "`"
  | .int i => "integer `" ++ toString i ++ "`"
  | .float x => "floating point `" ++ x.render wording.isPositional ++ "`"
  | .text s => "string " ++ Text.Quoted.quote s
  | .seq _ => "sequence"
  | .map _ => "map"
  | .tagged _ _ => "enum"

end Datum

end EnvLayers
