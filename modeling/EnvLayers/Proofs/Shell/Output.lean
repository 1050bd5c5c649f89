import EnvLayers.Proofs.Shell.Run

/-
Module: EnvLayers.Proofs.Shell.Output
Purpose: The files that the commands of a shell script send output to: the word after each operator
  that redirects output, expanded, wherever in a list, a choice or a loop the command stands. What
  the command of a substitution redirects is not covered.
Main exports: Shell.isOutput, Shell.Piece.redirects, Shell.outputsOf?, Shell.outputs?,
  Shell.outputsOf?_of_forall, Shell.outputsOf?_append
-/

namespace EnvLayers.Shell

/-- The operators that redirect output. -/
def isOutput (operator : String) : Bool := [">", ">>", ">|", "<>", ">&"].contains operator

/-- A command whose output stands in a word and which may redirect some of it. -/
def Piece.redirects : Piece → Bool
  | .command text _ => text.toList.contains '>'
  | _ => false

/-- The word that tokens begin with. -/
def firstWord? : List Token → Option Word
  | .word w :: _ => some w
  | _ => none

/-- The files that tokens send output to, in order. -/
def outputsOf? (E : Bindings) : List Token → Option (List String)
  | [] => some []
  | .operator text :: rest =>
    if isOutput text then do
      let file ← firstWord? rest
      return (← expand? E file) :: (← outputsOf? E rest)
    else outputsOf? E rest
  | .word w :: rest => if w.any Piece.redirects then none else outputsOf? E rest
  | .newline :: rest => outputsOf? E rest

/-- The files that the commands of a text send output to. -/
def outputs? (E : Bindings) (text : String) : Option (List String) := do
  outputsOf? E (← tokens? text)

variable {E : Bindings} {tokens more : List Token} {files files' : List String}

@[simp]
theorem redirects_param (name : String) (quoted : Bool) :
    (Piece.param name quoted).redirects = false := rfl

@[simp]
theorem any_redirects_bare (s : String) : (bare s).any Piece.redirects = false := by
  simp [bare, Piece.redirects]

@[simp]
theorem any_redirects_literal (s : String) : (literal s).any Piece.redirects = false := by
  simp [literal, Piece.redirects]

/-- Tokens without operators that redirect output send none. -/
theorem outputsOf?_of_forall (h : ∀ text, .operator text ∈ tokens → isOutput text = false)
    (hwords : ∀ w, .word w ∈ tokens → w.any Piece.redirects = false) :
    outputsOf? E tokens = some [] := by
  induction tokens with
  | nil =>
      rfl
  | cons t ts ih =>
      have hrest := ih (fun text htext => h text (List.mem_cons_of_mem _ htext))
        fun w hw => hwords w (List.mem_cons_of_mem _ hw)
      cases t with
      | word w =>
          rw [outputsOf?, hwords w List.mem_cons_self, hrest]
          rfl
      | operator text =>
          rw [outputsOf?, if_neg (by simp [h text List.mem_cons_self]), hrest]
      | newline =>
          exact hrest

theorem firstWord?_append {w : Word} (h : firstWord? tokens = some w) (more : List Token) :
    firstWord? (tokens ++ more) = some w := by
  cases tokens with
  | nil =>
      cases h
  | cons t ts =>
      cases t with
      | word _ => exact h
      | operator _ => cases h
      | newline => cases h

/-- The files of tokens, one after the other, are those of the first and those of the second. -/
theorem outputsOf?_append (h : outputsOf? E tokens = some files)
    (h' : outputsOf? E more = some files') :
    outputsOf? E (tokens ++ more) = some (files ++ files') := by
  induction tokens generalizing files with
  | nil =>
      cases h
      exact h'
  | cons t ts ih =>
      cases t with
      | word w =>
          rw [outputsOf?] at h
          rw [List.cons_append, outputsOf?]
          split at h
          · cases h
          · next hplain =>
              rw [if_neg hplain]
              exact ih h
      | newline =>
          exact ih h
      | operator text =>
          rw [outputsOf?] at h
          rw [List.cons_append, outputsOf?]
          split at h
          · next houtput =>
              simp only [Option.bind_eq_bind, Option.bind_eq_some_iff, Option.pure_def,
                Option.some.injEq] at h
              obtain ⟨file, hfile, name, hname, rest, hrest, rfl⟩ := h
              simp [houtput, firstWord?_append hfile, hname, ih hrest]
          · next houtput =>
              rw [if_neg houtput]
              exact ih h

example : outputs? (fun _ => none) "echo \">\" > \"a b\" || echo >> c\n" = some ["a b", "c"] := by
  decide

end EnvLayers.Shell
