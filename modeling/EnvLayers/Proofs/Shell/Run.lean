import EnvLayers.Proofs.Shell.Token
import EnvLayers.Proofs.Text.Cut
import Mathlib.Logic.Function.Basic

/-
Module: EnvLayers.Proofs.Shell.Run
Purpose: Running the simple commands of a shell that change variables. The words of a command are
  expanded once, and what an expansion yields is not read again.
Main exports: Shell.Bindings, Shell.expand?, Shell.exec, Shell.runTokens, Shell.run,
  Shell.runTokens_export, Shell.runTokens_unset
-/

namespace EnvLayers.Shell

/-- The values of the variables that are set. -/
abbrev Bindings := String → Option String

/-- A character that stands for other texts when it is not quoted. -/
def isPattern (c : Char) : Bool := c == '*' || c == '?' || c == '[' || c == '~'

/-- The text of a piece. A missing variable stands for the empty text. What would be matched against
file names or split, and the output of commands, is not covered. -/
def Piece.text? (E : Bindings) : Piece → Option String
  | .char c quoted => if quoted || !isPattern c then some (String.singleton c) else none
  | .param name quoted => if quoted then some ((E name).getD "") else none
  | .command _ _ => none

/-- The text of a word. -/
def expand? (E : Bindings) : Word → Option String
  | [] => some ""
  | p :: w => do return (← p.text? E) ++ (← expand? E w)

/-- One argument of an export: a name, or a name and its new value after the first equals sign. -/
def exportOne (E : Bindings) (text : String) : Option Bindings :=
  match Text.cutFirst '=' text.toList with
  | some (name, value) =>
    if Graph.isVariableName (String.ofList name) then
      some (Function.update E (String.ofList name) (some (String.ofList value)))
    else none
  | none => if Graph.isVariableName text then some E else none

/-- One argument of an unset. -/
def unsetOne (E : Bindings) (name : String) : Option Bindings :=
  if Graph.isVariableName name then some (Function.update E name none) else none

/-- A simple command. No other command is covered. -/
def exec (E : Bindings) (words : List Word) : Option Bindings := do
  match ← words.mapM (expand? E) with
  | [] => some E
  | command :: arguments =>
    if command = "export" then arguments.foldlM exportOne E
    else if command = "unset" then arguments.foldlM unsetOne E
    else none

/-- Runs the commands of a token list, each of which ends with its line, after the words of the
current one. -/
def runTokens : Bindings → List Word → List Token → Option Bindings
  | E, words, [] => exec E words
  | E, words, .word w :: rest => runTokens E (words ++ [w]) rest
  | E, words, .newline :: rest => do runTokens (← exec E words) [] rest
  | _, _, .operator _ :: _ => none

/-- Runs a text of simple commands. -/
def run (E : Bindings) (text : String) : Option Bindings := do runTokens E [] (← tokens? text)

/-! ### Expansion -/

theorem expand?_append {E : Bindings} {first second : Word} {text more : String}
    (h : expand? E first = some text) (h' : expand? E second = some more) :
    expand? E (first ++ second) = some (text ++ more) := by
  induction first generalizing text with
  | nil =>
      cases h
      simpa using h'
  | cons p w ih =>
      cases hp : p.text? E with
      | none =>
          simp [expand?, hp] at h
      | some start =>
          cases hw : expand? E w with
          | none =>
              simp [expand?, hw] at h
          | some rest =>
              simp only [expand?, hp, hw, Option.pure_def, Option.bind_eq_bind, Option.bind_some,
                Option.some.injEq] at h
              subst h
              simp [expand?, hp, ih hw, String.append_assoc]

theorem expand?_param (E : Bindings) (name : String) :
    expand? E [.param name true] = some ((E name).getD "") := by
  simp [expand?, Piece.text?]

/-- Characters that stand for themselves expand to their text. -/
theorem expand?_chars (E : Bindings) (cs : List Char) (quoted : Bool)
    (h : ∀ c ∈ cs, quoted || !isPattern c) :
    expand? E (cs.map (.char · quoted)) = some (String.ofList cs) := by
  induction cs with
  | nil =>
      rfl
  | cons c cs ih =>
      have hc : (Piece.char c quoted).text? E = some (String.singleton c) :=
        if_pos (h c List.mem_cons_self)
      have hrest := ih fun d hd => h d (List.mem_cons_of_mem _ hd)
      simp [expand?, hc, hrest]

theorem expand?_literal (E : Bindings) (s : String) : expand? E (literal s) = some s := by
  rw [literal, expand?_chars E s.toList true (fun _ _ => rfl), String.ofList_toList]

theorem expand?_name (E : Bindings) {name : String} (h : Graph.isVariableName name) :
    expand? E (bare name) = some name := by
  have hchars : ∀ c ∈ name.toList, false || !isPattern c := by
    intro c hc
    have hrest := isNameRest_of_isVariableName h c hc
    have hne : ∀ d, Graph.isNameRest d = false → c ≠ d := fun _ hd => ne_of_isNameRest hrest hd
    simp [isPattern, hne '*' rfl, hne '?' rfl, hne '[' rfl, hne '~' rfl]
  rw [bare, expand?_chars E _ false hchars, String.ofList_toList]

/-! ### Commands -/

/-- The name of a variable ends at the equals sign. -/
theorem cutFirst_assignment {name : String} (h : Graph.isVariableName name) (value : String) :
    Text.cutFirst '=' (name ++ "=" ++ value).toList = some (name.toList, value.toList) := by
  have hequals : '=' ∉ name.toList := not_mem_name h rfl
  simpa using Text.cutFirst_of_not_mem hequals value.toList

theorem exportOne_assignment (E : Bindings) {name : String} (h : Graph.isVariableName name)
    (value : String) :
    exportOne E (name ++ "=" ++ value) = some (Function.update E name (some value)) := by
  rw [exportOne, cutFirst_assignment h]
  simp [h]

/-- A line that exports a variable with a quoted value. -/
def exportLine (name : String) (value : Word) : List Token :=
  [.word (bare "export"), .word (bare name ++ bare "=" ++ value), .newline]

/-- A line that removes a variable. -/
def unsetLine (name : String) : List Token := [.word (bare "unset"), .word (bare name), .newline]

theorem runTokens_exportLine {E : Bindings} {name : String} (hname : Graph.isVariableName name)
    {value : Word} {text : String} (hvalue : expand? E value = some text) (rest : List Token) :
    runTokens E [] (exportLine name value ++ rest)
      = runTokens (Function.update E name (some text)) [] rest := by
  have hcommand : expand? E (bare "export") = some "export" := expand?_name E rfl
  have hequals : expand? E (bare "=") = some "=" := rfl
  have hargument := expand?_append (expand?_append (expand?_name E hname) hequals) hvalue
  have hexec : exec E [bare "export", bare name ++ bare "=" ++ value]
      = some (Function.update E name (some text)) := by
    simp only [exec, List.mapM_cons, List.mapM_nil, hcommand, hargument, Option.pure_def,
      Option.bind_eq_bind, Option.bind_some, if_true, List.foldlM_cons, List.foldlM_nil,
      exportOne_assignment E hname]
  simp only [exportLine, List.cons_append, List.nil_append, runTokens, hexec, Option.bind_eq_bind,
    Option.bind_some]

theorem runTokens_unsetLine (E : Bindings) {name : String} (hname : Graph.isVariableName name)
    (rest : List Token) :
    runTokens E [] (unsetLine name ++ rest) = runTokens (Function.update E name none) [] rest := by
  have hcommand : expand? E (bare "unset") = some "unset" := expand?_name E rfl
  have hexec : exec E [bare "unset", bare name] = some (Function.update E name none) := by
    simp [exec, hcommand, expand?_name E hname, unsetOne, hname]
  simp only [unsetLine, List.cons_append, List.nil_append, runTokens, hexec, Option.bind_eq_bind,
    Option.bind_some]

end EnvLayers.Shell
