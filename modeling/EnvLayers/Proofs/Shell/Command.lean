import EnvLayers.Proofs.Shell.Lines

/-
Module: EnvLayers.Proofs.Shell.Command
Purpose: The commands that the tokens of a script stand for: assignments, calls with their output
  sent to a file, alternatives, choices and loops. Reserved words count where they begin a line, as
  scripts write them; a token list outside the covered grammar is no command.
Main exports: Shell.Command, Shell.Blocks, Shell.Blocks.addLine, Shell.command?,
  Shell.command?_lines
-/

namespace EnvLayers.Shell

/-- The file that the output of a call goes to: over what it held, or behind it. -/
structure Target where
  file : Word
  appends : Bool
deriving Repr, DecidableEq

/-- A command and the commands that it consists of. `orElse` runs its second command when the first
one fails, `seq` runs both, and `choose` asks its first one which of the others to run. -/
inductive Command where
  | skip
  | assign (name : String) (value : Word)
  | call (words : List Word) (target : Option Target)
  | orElse (first second : Command)
  | seq (first second : Command)
  | choose (condition yes no : Command)
  | forEach (name : String) (words : List Word) (body : Command)
deriving Repr, DecidableEq

/-! ### Lines without reserved words -/

/-- The name and the value of an assignment: a word with an equals sign that is not quoted, after
the characters of a name. -/
def assignment? (name : String) : Word → Option (String × Word)
  | .char c false :: rest =>
    if c = '=' then if Graph.isVariableName name then some (name, rest) else none
    else assignment? (name.push c) rest
  | _ => none

/-- A command of the words read so far and of those to come. -/
def simple? (words : List Word) : List Token → Option Command
  | [] =>
    match words with
    | [] => none
    | [w] =>
      match assignment? "" w with
      | some (name, value) => some (.assign name value)
      | none => some (.call [w] none)
    | words => some (.call words none)
  | [.operator ">", .word file] => some (.call words (some ⟨file, false⟩))
  | [.operator ">>", .word file] => some (.call words (some ⟨file, true⟩))
  | .word w :: rest => simple? (words ++ [w]) rest
  | _ => none

/-- Commands with bars between them, of which the tokens before are those of the first one. -/
def alternatives? (before : List Token) : List Token → Option Command
  | [] => simple? [] before
  | .operator "||" :: rest => do
    let first ← simple? [] before
    let second ← alternatives? [] rest
    return .orElse first second
  | t :: rest => alternatives? (before ++ [t]) rest

/-! ### Blocks -/

/-- The words that begin the parts of loops and choices. -/
inductive Keyword where
  | loop
  | body
  | endLoop
  | test
  | yes
  | no
  | endTest
deriving Repr, DecidableEq

/-- The reserved word that a word is, unless it is quoted. -/
def keyword? (w : Word) : Option Keyword :=
  [(bare "for", .loop), (bare "do", .body), (bare "done", .endLoop), (bare "if", .test),
    (bare "then", .yes), (bare "else", .no), (bare "fi", .endTest)].lookup w

/-- A loop or a choice that is read up to one of its parts, with the commands before it. -/
inductive Frame where
  | forHead (before : Command) (name : String) (words : List Word)
  | forBody (before : Command) (name : String) (words : List Word)
  | ifHead (before condition : Command)
  | ifYes (before condition : Command)
  | ifNo (before condition yes : Command)
deriving Repr, DecidableEq

/-- The commands read so far in the innermost part, and what it is part of, from the inside out. -/
structure Blocks where
  current : Command
  frames : List Frame
deriving Repr, DecidableEq

/-- The text of a word of which nothing is quoted or expanded. -/
def plain? (w : Word) : Option String :=
  (w.mapM fun | Piece.char c false => some c | _ => none).map String.ofList

def Token.word? : Token → Option Word
  | .word w => some w
  | _ => none

namespace Blocks

/-- After the head of a loop or a choice its part has to begin. -/
def atHead (b : Blocks) : Bool :=
  match b.frames with
  | .forHead .. :: _ | .ifHead .. :: _ => true
  | _ => false

/-- Opens a loop over words. -/
def openLoop (b : Blocks) : List Token → Option Blocks
  | .word name :: .word separator :: rest => do
    let name ← plain? name
    let words ← rest.mapM Token.word?
    if separator = bare "in" ∧ Graph.isVariableName name then
      some ⟨.skip, .forHead b.current name words :: b.frames⟩
    else none
  | _ => none

/-- A line that begins with a reserved word. -/
def addPart (b : Blocks) (keyword : Keyword) (rest : List Token) : Option Blocks :=
  match keyword, b.frames, rest with
  | .loop, _, rest => if b.atHead then none else b.openLoop rest
  | .test, _, rest =>
    if b.atHead then none
    else do
      let condition ← alternatives? [] rest
      return ⟨.skip, .ifHead b.current condition :: b.frames⟩
  | .body, .forHead before name words :: frames, [] =>
    some ⟨.skip, .forBody before name words :: frames⟩
  | .endLoop, .forBody before name words :: frames, [] =>
    some ⟨.seq before (.forEach name words b.current), frames⟩
  | .yes, .ifHead before condition :: frames, [] =>
    some ⟨.skip, .ifYes before condition :: frames⟩
  | .no, .ifYes before condition :: frames, [] =>
    some ⟨.skip, .ifNo before condition b.current :: frames⟩
  | .endTest, .ifNo before condition yes :: frames, [] =>
    some ⟨.seq before (.choose condition yes b.current), frames⟩
  | _, _, _ => none

/-- A line of tokens. -/
def addLine (b : Blocks) (line : List Token) : Option Blocks :=
  match line with
  | [] => some b
  | .word w :: rest =>
    match keyword? w with
    | some keyword => b.addPart keyword rest
    | none =>
      if b.atHead then none
      else do
        let command ← alternatives? [] line
        return { b with current := .seq b.current command }
  | _ => none

end Blocks

/-- The tokens of a line and of those after it. -/
def readLines (b : Blocks) (line : List Token) : List Token → Option Blocks
  | [] => b.addLine line
  | .newline :: rest => do readLines (← b.addLine line) [] rest
  | t :: rest => readLines b (line ++ [t]) rest

/-- The command that tokens stand for. -/
def command? (tokens : List Token) : Option Command := do
  let b ← readLines ⟨.skip, []⟩ [] tokens
  if b.frames = [] then some b.current else none

/-! ### Reading lines -/

theorem plain?_bare (text : String) : plain? (bare text) = some text := by
  have hchars : ∀ cs : List Char,
      (cs.map (Piece.char · false)).mapM (fun | Piece.char c false => some c | _ => none)
        = some cs := by
    intro cs
    induction cs with
    | nil =>
        rfl
    | cons c cs ih =>
        rw [List.map_cons, List.mapM_cons, ih]
        rfl
  rw [plain?, bare, hchars, Option.map_some, String.ofList_toList]

theorem mapM_word? (words : List Word) : (words.map Token.word).mapM Token.word? = some words := by
  induction words with
  | nil =>
      rfl
  | cons w words ih =>
      rw [List.map_cons, List.mapM_cons, ih]
      rfl

/-- A line that begins a loop over words. -/
theorem Blocks.addLine_for {b : Blocks} (hhead : b.atHead = false) {name : String}
    (hname : Graph.isVariableName name) (words : List Word) :
    b.addLine (.word (bare "for") :: .word (bare name) :: .word (bare "in") :: words.map Token.word)
      = some ⟨.skip, .forHead b.current name words :: b.frames⟩ := by
  have hopen : b.openLoop (.word (bare name) :: .word (bare "in") :: words.map Token.word)
      = some ⟨.skip, .forHead b.current name words :: b.frames⟩ := by
    simp only [openLoop, plain?_bare, mapM_word?, Option.bind_eq_bind, Option.bind_some, hname,
      and_self, if_true]
  have hkeyword : keyword? (bare "for") = some .loop := rfl
  simp only [addLine, hkeyword, addPart, hhead, Bool.false_eq_true, if_false, hopen]

theorem readLines_line {ts : List Token} (h : .newline ∉ ts) (b : Blocks) (line rest : List Token) :
    readLines b line (ts ++ .newline :: rest)
      = (b.addLine (line ++ ts)).bind fun b' => readLines b' [] rest := by
  induction ts generalizing line with
  | nil =>
      rw [List.nil_append, List.append_nil]
      rfl
  | cons t ts ih =>
      obtain ⟨hne, hrest⟩ := not_or.mp (mt List.mem_cons.mpr h)
      have hstep : readLines b line (t :: ts ++ .newline :: rest)
          = readLines b (line ++ [t]) (ts ++ .newline :: rest) := by
        cases t with
        | newline =>
            exact absurd rfl hne
        | word w =>
            rfl
        | operator text =>
            rfl
      rw [hstep, ih hrest, List.append_assoc, List.singleton_append]

/-- Lines are read one after the other. -/
theorem readLines_lines {lines : List (List Token)} (h : ∀ line ∈ lines, .newline ∉ line)
    (b : Blocks) :
    readLines b [] (lines.map (· ++ [.newline])).flatten = lines.foldlM Blocks.addLine b := by
  induction lines generalizing b with
  | nil =>
      rfl
  | cons line lines ih =>
      obtain ⟨hline, hrest⟩ := List.forall_mem_cons.mp h
      rw [List.map_cons, List.flatten_cons, List.append_assoc, List.singleton_append,
        readLines_line hline, List.foldlM_cons]
      congr 1
      funext b'
      exact ih hrest b'

theorem command?_lines {lines : List (List Token)} (h : ∀ line ∈ lines, .newline ∉ line)
    {command : Command} (hread : lines.foldlM Blocks.addLine ⟨.skip, []⟩ = some ⟨command, []⟩) :
    command? (lines.map (· ++ [.newline])).flatten = some command := by
  rw [command?, readLines_lines h, hread]
  rfl

end EnvLayers.Shell
