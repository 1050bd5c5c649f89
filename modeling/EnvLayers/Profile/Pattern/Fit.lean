import EnvLayers.Profile.Pattern

/-
Module: EnvLayers.Profile.Pattern.Fit
Purpose: The texts that fit a pattern, first as a rule on its parts and then as a computation from
  the last part to the first, which looks at each end of the text once for each part.
Main exports: Pattern.accepts, Pattern.fits, Pattern.fits_eq_accepts, Pattern.applies
-/

namespace EnvLayers.Pattern

/-- Every end of a text, from the whole text to nothing. -/
def ends : List Char → List (List Char)
  | [] => [[]]
  | c :: cs => (c :: cs) :: ends cs

/-- The ends of a text that start after a slash. -/
def endsAfterSlash : List Char → List (List Char)
  | [] => []
  | c :: cs => if c = '/' then cs :: endsAfterSlash cs else endsAfterSlash cs

/-- The character belongs to a class. -/
def isMember (ranges : List (Char × Char)) (c : Char) : Bool :=
  ranges.any fun range => range.1.toNat ≤ c.toNat && c.toNat ≤ range.2.toNat

/-- A part that stands for one character accepts it. -/
def Token.acceptsChar (c : Char) : Token → Bool
  | .literal d => c == d
  | .anyChar => true
  | .among negated ranges => isMember ranges c != negated
  | .anySequence | .anyComponents => false

/-- The whole text fits the parts. A double star leaves the text, an end after one of its slashes,
or nothing. -/
def accepts : List Token → List Char → Bool
  | [], cs => cs.isEmpty
  | .anySequence :: rest, cs => (ends cs).any (accepts rest)
  | .anyComponents :: rest, cs => (cs :: endsAfterSlash cs ++ [[]]).any (accepts rest)
  | _ :: _, [] => false
  | token :: rest, c :: cs => token.acceptsChar c && accepts rest cs

/-! ### Rows

A row tells of every end of a text, from the whole text to nothing, whether it fits some parts. -/

/-- The row with a part for one character in front. -/
def charRow (token : Token) : List Char → List Bool → List Bool
  | c :: cs, _ :: row => (token.acceptsChar c && row.headD false) :: charRow token cs row
  | _, _ => [false]

/-- The row with a star in front: an end fits once some end of it does. -/
def sequenceRow : List Bool → List Bool
  | [] => []
  | fit :: row =>
    let more := sequenceRow row
    (fit || more.headD false) :: more

/-- The ends of which an end after a slash fits, or the end that holds nothing. -/
def slashRow : List Char → List Bool → List Bool
  | c :: cs, _ :: row =>
    let more := slashRow cs row
    ((c == '/' && row.headD false) || more.headD false) :: more
  | _, row => row

/-- The row with another part in front. -/
def Token.row (text : List Char) (row : List Bool) : Token → List Bool
  | .anySequence => sequenceRow row
  | .anyComponents => row.zipWith (· || ·) (slashRow text row)
  | token => charRow token text row

/-- The row of a pattern. -/
def fitRow (text : List Char) (tokens : List Token) : List Bool :=
  tokens.foldr (fun token row => token.row text row) ((ends text).map List.isEmpty)

/-- The whole text fits the parts, by way of rows. -/
def fits (tokens : List Token) (text : List Char) : Bool := (fitRow text tokens).headD false

@[simp] theorem head?_ends (cs : List Char) : (ends cs).head? = some cs := by
  cases cs <;> rfl

theorem charRow_map_ends (token : Token) (f : List Char → Bool) (cs : List Char) :
    charRow token cs ((ends cs).map f) =
      (ends cs).map fun rest =>
        match rest with
        | [] => false
        | c :: rest => token.acceptsChar c && f rest := by
  induction cs with
  | nil => simp [ends, charRow]
  | cons c cs ih => simp [ends, charRow, ih]

theorem sequenceRow_map_ends (f : List Char → Bool) (cs : List Char) :
    sequenceRow ((ends cs).map f) = (ends cs).map fun rest => (ends rest).any f := by
  induction cs with
  | nil => simp [ends, sequenceRow]
  | cons c cs ih => simp [ends, sequenceRow, ih]

theorem slashRow_map_ends (f : List Char → Bool) (cs : List Char) :
    slashRow cs ((ends cs).map f) =
      (ends cs).map fun rest => (endsAfterSlash rest).any f || f [] := by
  induction cs with
  | nil => simp [ends, slashRow, endsAfterSlash]
  | cons c cs ih =>
    by_cases h : c = '/' <;> simp [ends, slashRow, endsAfterSlash, ih, h, Bool.or_assoc]

/-- The row of a pattern tells which ends fit its parts. -/
theorem fitRow_eq (text : List Char) (tokens : List Token) :
    fitRow text tokens = (ends text).map (accepts tokens) := by
  induction tokens with
  | nil => simp [fitRow, accepts]
  | cons token rest ih =>
    rw [fitRow, List.foldr_cons, ← fitRow, ih]
    cases token with
    | anySequence => simp [Token.row, sequenceRow_map_ends, accepts]
    | anyComponents =>
      simp only [Token.row, slashRow_map_ends, List.zipWith_map, List.zipWith_self]
      refine List.map_congr_left fun cs _ => ?_
      simp [accepts]
    | _ =>
      simp only [Token.row, charRow_map_ends]
      refine List.map_congr_left fun cs _ => ?_
      cases cs <;> simp [accepts]

/-- Rows follow the rule. -/
theorem fits_eq_accepts (tokens : List Token) (text : List Char) :
    fits tokens text = accepts tokens text := by
  simp [fits, fitRow_eq]

/-- An operation under the pattern applies to the reference. A text that is no pattern applies to
the reference equal to it. -/
def applies (pattern reference : String) : Bool :=
  match compile pattern with
  | some tokens => fits tokens reference.toList
  | none => pattern == reference

end EnvLayers.Pattern
