/-
Module: EnvLayers.Text.Cut
Purpose: Cutting a text at a character and looking for one text inside another.
Main exports: pieces, cutFirst, cutLast, dropPrefix, dropFinal, occursIn, replaceAll
-/

namespace EnvLayers.Text

/-- The parts between the occurrences of `sep`: always one more than there are occurrences. -/
def pieces (sep : Char) : List Char → List (List Char)
  | [] => [[]]
  | c :: cs =>
    if c = sep then [] :: pieces sep cs
    else
      match pieces sep cs with
      | [] => [[c]]
      | piece :: rest => (c :: piece) :: rest

/-- The parts before and after the first `sep`. -/
def cutFirst (sep : Char) : List Char → Option (List Char × List Char)
  | [] => none
  | c :: cs =>
    if c = sep then some ([], cs)
    else (cutFirst sep cs).map fun (before, after) => (c :: before, after)

/-- The parts before and after the last `sep`. -/
def cutLast (sep : Char) : List Char → Option (List Char × List Char)
  | [] => none
  | c :: cs =>
    match cutLast sep cs with
    | some (before, after) => some (c :: before, after)
    | none => if c = sep then some ([], cs) else none

/-- What follows `start` in a text that begins with it. -/
def dropPrefix (start cs : List Char) : Option (List Char) := start.isPrefixOf? cs

/-- What comes before a final `c`. -/
def dropFinal (c : Char) (cs : List Char) : Option (List Char) :=
  if cs.getLast? = some c then some cs.dropLast else none

/-- The text `needle` stands somewhere in the second text. -/
def occursIn (needle : List Char) : List Char → Bool
  | [] => needle.isEmpty
  | c :: cs => needle.isPrefixOf (c :: cs) || occursIn needle cs

/-- Replaces the occurrences of `old` from left to right, after leaving out `skip` characters that
belong to an occurrence already replaced. -/
def replaceFrom (old new : List Char) : Nat → List Char → List Char
  | _, [] => []
  | skip + 1, _ :: cs => replaceFrom old new skip cs
  | 0, c :: cs =>
    if old.isPrefixOf (c :: cs) then new ++ replaceFrom old new (old.length - 1) cs
    else c :: replaceFrom old new 0 cs

/-- Replaces every occurrence of `old`, which is not empty, by `new`. -/
def replaceAll (old new cs : List Char) : List Char := replaceFrom old new 0 cs

end EnvLayers.Text
