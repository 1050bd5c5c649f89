import EnvLayers.Text.Cut

/-
Module: EnvLayers.Profile.Pattern
Purpose: The parts of a pattern that chooses packages by their reference: stars, question marks and
  character classes. Slashes and leading dots are ordinary characters, except that a double star
  stands for whole components of a path.
Main exports: Pattern.Token, Pattern.compile
-/

namespace EnvLayers.Pattern

/-- One part of a pattern. The members of a class are ranges of characters, both ends included. -/
inductive Token where
  | literal (c : Char)
  | anyChar
  | among (negated : Bool) (members : List (Char × Char))
  | anySequence
  | anyComponents
deriving Repr, DecidableEq

/-- The members of a class: three characters with a dash in the middle are a range, and any other
character stands for itself. -/
def members : List Char → List (Char × Char)
  | first :: '-' :: last :: rest => (first, last) :: members rest
  | c :: rest => (c, c) :: members rest
  | [] => []

/-- The members of a class up to its closing bracket, with what follows it. The first character of a
class is always a member, even a closing bracket. -/
def readMembers (negated : Bool) : List Char → Option (Token × List Char)
  | [] => none
  | first :: more =>
    match Text.cutFirst ']' more with
    | none => none
    | some (inner, rest) => some (.among negated (members (first :: inner)), rest)

/-- A class after its opening bracket, with what follows its closing one. -/
def readClass : List Char → Option (Token × List Char)
  | '!' :: body => readMembers true body
  | body => readMembers false body

theorem length_cutFirst {sep : Char} {cs before after : List Char}
    (h : Text.cutFirst sep cs = some (before, after)) : after.length < cs.length := by
  induction cs generalizing before after with
  | nil => simp [Text.cutFirst] at h
  | cons c rest ih =>
    simp only [Text.cutFirst] at h
    split at h
    · simp_all
    · obtain ⟨⟨b, a⟩, hcut, heq⟩ := Option.map_eq_some_iff.mp h
      have := ih hcut
      simp_all
      omega

theorem length_readMembers {negated : Bool} {body rest : List Char} {token : Token}
    (h : readMembers negated body = some (token, rest)) : rest.length < body.length := by
  match body with
  | [] => simp [readMembers] at h
  | first :: more =>
    simp only [readMembers] at h
    split at h
    · simp at h
    · next inner after hcut =>
      have hlt := length_cutFirst hcut
      simp only [Option.some.injEq, Prod.mk.injEq] at h
      simp only [List.length_cons, ← h.2]
      omega

theorem length_readClass {body rest : List Char} {token : Token}
    (h : readClass body = some (token, rest)) : rest.length < body.length := by
  unfold readClass at h
  split at h
  · exact Nat.lt_succ_of_lt (length_readMembers h)
  · exact length_readMembers h

/-- The parts of a pattern, where `before` is the character in front of the rest that is read. A
double star has to be a whole component, three stars in a row are none, and a class has to be
closed. -/
def compileFrom (before : Option Char) (cs : List Char) : Option (List Token) :=
  match cs with
  | [] => some []
  | '?' :: rest => (compileFrom (some '?') rest).map (.anyChar :: ·)
  | '*' :: '*' :: rest =>
    if before = none ∨ before = some '/' then
      match rest with
      | [] => some [.anyComponents]
      | '/' :: rest => (compileFrom (some '/') rest).map (.anyComponents :: ·)
      | _ => none
    else none
  | '*' :: rest => (compileFrom (some '*') rest).map (.anySequence :: ·)
  | '[' :: rest =>
    match _h : readClass rest with
    | none => none
    | some (token, rest) => (compileFrom (some ']') rest).map (token :: ·)
  | c :: rest => (compileFrom (some c) rest).map (.literal c :: ·)
termination_by cs.length
decreasing_by
  · simp
  · simp only [List.length_cons]
    omega
  · simp
  · exact Nat.lt_succ_of_lt (length_readClass _h)
  · simp

/-- The parts of a pattern, or nothing for a text that is no pattern. -/
def compile (pattern : String) : Option (List Token) := compileFrom none pattern.toList

end EnvLayers.Pattern
