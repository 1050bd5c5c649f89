import EnvLayers.Graph.Basic

/-
Module: EnvLayers.Proofs.Shell.Token
Purpose: How a shell cuts a text into words, operators and ends of lines, after the token
  recognition and quoting rules of POSIX. A text outside the covered part has no tokens:
  here-documents, backquotes, special parameters, and quotes inside a command substitution.
Main exports: Shell.Piece, Shell.Token, Shell.step, Shell.read, Shell.tokens?, Shell.Quotes
-/

namespace EnvLayers.Shell

/-- A piece of a word: a character that stands for itself, the value of a parameter, or the output
of a command. A piece that is not quoted can be split or matched against file names. -/
inductive Piece where
  | char (c : Char) (quoted : Bool)
  | param (name : String) (quoted : Bool)
  | command (text : String) (quoted : Bool)
deriving Repr, DecidableEq

abbrev Word := List Piece

inductive Token where
  | word (w : Word)
  | operator (text : String)
  | newline
deriving Repr, DecidableEq

/-- Where the next character is read. `escaped` is the place after a backslash, with the place that
it stands in; the places after a dollar sign say whether it is quoted. -/
inductive Place where
  | between
  | comment
  | operator (text : String)
  | word
  | single
  | double
  | escaped (back : Place)
  | dollar (quoted : Bool)
  | name (text : String) (quoted : Bool)
  | braces (text : String) (quoted : Bool)
  | command (text : String) (quoted : Bool)
deriving Repr, DecidableEq

/-- The word being read and the tokens before it. -/
structure Reader where
  place : Place
  word : Word
  tokens : List Token
deriving Repr, DecidableEq

/-! ### Reading -/

/-- The characters that keep a meaning between double quotes. -/
def isSpecial (c : Char) : Bool := c == '$' || c == '\x60' || c == '"' || c == '\\'

def isBlank (c : Char) : Bool := c == ' ' || c == '\t'

def isOperator (c : Char) : Bool := ['<', '>', '|', '&', ';', '(', ')'].contains c

/-- The operators of more than one character, here-documents apart. -/
def longOperators : List String := ["&&", "||", ";;", ">>", "<&", ">&", "<>", ">|"]

namespace Reader

/-- Adds a piece to the word and goes on inside it. -/
def push (r : Reader) (p : Piece) (quoted : Bool) : Reader :=
  ⟨if quoted then .double else .word, r.word ++ [p], r.tokens⟩

/-- Ends the word, if one was started. -/
def delimit (r : Reader) : Reader :=
  if r.place = .word then ⟨.between, [], r.tokens ++ [.word r.word]⟩ else r

end Reader

/-- A character outside quotes, between two words or inside one. -/
def stepBare (r : Reader) (c : Char) : Option Reader :=
  if isBlank c then some r.delimit
  else if c = '\n' then some ⟨.between, [], r.delimit.tokens ++ [.newline]⟩
  else if isOperator c then some { r.delimit with place := .operator (String.singleton c) }
  else if c = '#' ∧ r.place = .between then some { r with place := .comment }
  else if c = '\x27' then some { r with place := .single }
  else if c = '"' then some { r with place := .double }
  else if c = '\\' then some { r with place := .escaped r.place }
  else if c = '$' then some { r with place := .dollar false }
  else if c = '\x60' then none
  else some (r.push (.char c false) false)

/-- A character between double quotes. -/
def stepDouble (r : Reader) (c : Char) : Option Reader :=
  if c = '"' then some { r with place := .word }
  else if c = '\\' then some { r with place := .escaped .double }
  else if c = '$' then some { r with place := .dollar true }
  else if c = '\x60' then none
  else some (r.push (.char c true) true)

/-- A character after a backslash. A line end vanishes together with the backslash, and between
double quotes the backslash stays before a character that it does not quote. -/
def stepEscaped (r : Reader) (back : Place) (c : Char) : Option Reader :=
  if c = '\n' then some { r with place := back }
  else if back = .double ∧ isSpecial c = false then
    some ((r.push (.char '\\' true) true).push (.char c true) true)
  else some (r.push (.char c true) (back = .double))

/-- A character after a dollar sign. -/
def stepDollar (r : Reader) (quoted : Bool) (c : Char) : Option Reader :=
  if c = '\x7b' then some { r with place := .braces "" quoted }
  else if c = '(' then some { r with place := .command "" quoted }
  else if Graph.isNameStart c then some { r with place := .name (String.singleton c) quoted }
  else none

/-- One character. -/
def step (r : Reader) (c : Char) : Option Reader :=
  match r.place with
  | .between => stepBare r c
  | .word => stepBare r c
  | .double => stepDouble r c
  | .single =>
    if c = '\x27' then some { r with place := .word }
    else some { r with word := r.word ++ [.char c true] }
  | .comment => if c = '\n' then stepBare { r with place := .between } c else some r
  | .operator text =>
    if text.push c = "<<" then none
    else if longOperators.contains (text.push c) then
      some { r with place := .operator (text.push c) }
    else stepBare ⟨.between, [], r.tokens ++ [.operator text]⟩ c
  | .escaped back => stepEscaped r back c
  | .dollar quoted => stepDollar r quoted c
  | .name text quoted =>
    if Graph.isNameRest c then some { r with place := .name (text.push c) quoted }
    else if quoted then stepDouble (r.push (.param text true) true) c
    else stepBare (r.push (.param text false) false) c
  | .braces text quoted =>
    if c ≠ '\x7d' then some { r with place := .braces (text.push c) quoted }
    else if Graph.isVariableName text then some (r.push (.param text quoted) quoted)
    else none
  | .command text quoted =>
    if c = ')' then some (r.push (.command text quoted) quoted)
    else if ['(', '\x27', '"', '\\', '\x60', '#', '\n'].contains c then none
    else some { r with place := .command (text.push c) quoted }

def read (r : Reader) (cs : List Char) : Option Reader := cs.foldlM step r

/-- The tokens of a text whose last line is ended. -/
def tokens? (text : String) : Option (List Token) := do
  let r ← read ⟨.between, [], []⟩ text.toList
  if r.place = .between then some r.tokens else none

theorem read_cons (r : Reader) (c : Char) (cs : List Char) :
    read r (c :: cs) = (step r c).bind fun r' => read r' cs := rfl

theorem read_append (r : Reader) (first second : List Char) :
    read r (first ++ second) = (read r first).bind fun r' => read r' second :=
  List.foldlM_append

/-! ### Names outside quotes -/

/-- The word of a text outside quotes. -/
def bare (s : String) : Word := s.toList.map (.char · false)

/-- A character of a name is none that is not. -/
theorem ne_of_isNameRest {c : Char} (h : Graph.isNameRest c) {d : Char}
    (hd : Graph.isNameRest d = false) : c ≠ d := by
  rintro rfl
  rw [h] at hd
  cases hd

theorem stepBare_nameRest {c : Char} (h : Graph.isNameRest c) (r : Reader) :
    stepBare r c = some (r.push (.char c false) false) := by
  have hne : ∀ d, Graph.isNameRest d = false → c ≠ d := fun _ hd => ne_of_isNameRest h hd
  have hblank : isBlank c = false := by
    simp [isBlank, hne ' ' rfl, hne '\t' rfl]
  have hoperator : isOperator c = false := by
    simp [isOperator, hne '<' rfl, hne '>' rfl, hne '|' rfl, hne '&' rfl, hne ';' rfl, hne '(' rfl,
      hne ')' rfl]
  simp [stepBare, hblank, hoperator, hne '\n' rfl, hne '#' rfl, hne '\x27' rfl, hne '"' rfl,
    hne '\\' rfl, hne '$' rfl, hne '\x60' rfl]

/-- A word goes on through the characters of a name. -/
theorem read_nameRest {cs : List Char} (h : ∀ c ∈ cs, Graph.isNameRest c) (w : Word)
    (ts : List Token) :
    read ⟨.word, w, ts⟩ cs = some ⟨.word, w ++ cs.map (.char · false), ts⟩ := by
  induction cs generalizing w with
  | nil =>
      simp [read]
  | cons c cs ih =>
      have hstep : step ⟨.word, w, ts⟩ c = some ⟨.word, w ++ [.char c false], ts⟩ :=
        stepBare_nameRest (h c List.mem_cons_self) _
      rw [read_cons, hstep, Option.bind_some, ih fun d hd => h d (List.mem_cons_of_mem _ hd)]
      simp

theorem isNameRest_of_isVariableName {name : String} (h : Graph.isVariableName name) :
    ∀ c ∈ name.toList, Graph.isNameRest c := by
  intro c hc
  unfold Graph.isVariableName at h
  cases hname : name.toList with
  | nil =>
      simp [hname] at h
  | cons d rest =>
      simp only [hname, Bool.and_eq_true, List.all_eq_true] at h
      rcases List.mem_cons.mp (hname ▸ hc) with rfl | hc
      · have hstart := h.1
        simp only [Graph.isNameStart, Bool.or_eq_true] at hstart
        rcases hstart with hletter | hunderscore
        · simp [Graph.isNameRest, Char.isAlphanum, hletter]
        · simp [Graph.isNameRest, hunderscore]
      · exact h.2 c hc

/-- A character that names do not have is in no name. -/
theorem not_mem_name {name : String} (h : Graph.isVariableName name) {c : Char}
    (hc : Graph.isNameRest c = false) : c ∉ name.toList := fun hmem =>
  ne_of_isNameRest (isNameRest_of_isVariableName h c hmem) hc rfl

/-- A name starts a word. -/
theorem read_name {name : String} (h : Graph.isVariableName name) (ts : List Token) :
    read ⟨.between, [], ts⟩ name.toList = some ⟨.word, bare name, ts⟩ := by
  have hrest := isNameRest_of_isVariableName h
  unfold bare
  cases hname : name.toList with
  | nil =>
      simp [Graph.isVariableName, hname] at h
  | cons c cs =>
      rw [hname] at hrest
      have hstep : step ⟨.between, [], ts⟩ c = some ⟨.word, [.char c false], ts⟩ :=
        stepBare_nameRest (hrest c List.mem_cons_self) _
      rw [read_cons, hstep, Option.bind_some,
        read_nameRest fun d hd => hrest d (List.mem_cons_of_mem _ hd)]
      rfl

/-! ### Between double quotes -/

/-- Between double quotes, the characters are read as the pieces. -/
def Quotes (cs : List Char) (pieces : Word) : Prop :=
  ∀ w ts, read ⟨.double, w, ts⟩ cs = some ⟨.double, w ++ pieces, ts⟩

/-- The word of a text that stands for itself. -/
def literal (s : String) : Word := s.toList.map (.char · true)

namespace Quotes

variable {cs ds : List Char} {pieces more : Word}

theorem nil : Quotes [] [] := by
  intro w ts
  simp [read]

theorem append (h : Quotes cs pieces) (h' : Quotes ds more) :
    Quotes (cs ++ ds) (pieces ++ more) := by
  intro w ts
  rw [read_append, h w ts, Option.bind_some, h' _ ts, List.append_assoc]

theorem char {c : Char} (h : isSpecial c = false) : Quotes [c] [.char c true] := by
  intro w ts
  simp only [isSpecial, Bool.or_eq_false_iff, beq_eq_false_iff_ne] at h
  obtain ⟨⟨⟨hdollar, hbackquote⟩, hquote⟩, hbackslash⟩ := h
  simp [read, step, stepDouble, hdollar, hbackquote, hquote, hbackslash, Reader.push]

theorem escaped {c : Char} (h : isSpecial c) : Quotes ['\\', c] [.char c true] := by
  intro w ts
  have hline : c ≠ '\n' := by
    rintro rfl
    cases h
  simp [read, step, stepDouble, stepEscaped, hline, h, Reader.push]

theorem chars (h : ∀ c ∈ cs, isSpecial c = false) : Quotes cs (cs.map (.char · true)) := by
  induction cs with
  | nil =>
      exact nil
  | cons c cs ih =>
      exact (char (h c List.mem_cons_self)).append
        (ih fun d hd => h d (List.mem_cons_of_mem _ hd))

end Quotes

/-- Between single quotes every character stands for itself. -/
theorem read_single {cs : List Char} (h : '\x27' ∉ cs) (w : Word) (ts : List Token) :
    read ⟨.single, w, ts⟩ cs = some ⟨.single, w ++ cs.map (.char · true), ts⟩ := by
  induction cs generalizing w with
  | nil =>
      simp [read]
  | cons c cs ih =>
      have hne : c ≠ '\x27' := fun heq => h (heq ▸ List.mem_cons_self)
      have hstep : step ⟨.single, w, ts⟩ c = some ⟨.single, w ++ [.char c true], ts⟩ := if_neg hne
      rw [read_cons, hstep, Option.bind_some, ih fun hmem => h (List.mem_cons_of_mem _ hmem)]
      simp

/-- The name in braces is read up to the closing brace. -/
theorem read_braces {cs : List Char} (h : ∀ c ∈ cs, Graph.isNameRest c) (text : String)
    (quoted : Bool) (w : Word) (ts : List Token) :
    read ⟨.braces text quoted, w, ts⟩ cs
      = some ⟨.braces (text ++ String.ofList cs) quoted, w, ts⟩ := by
  induction cs generalizing text with
  | nil =>
      simp [read]
  | cons c cs ih =>
      have hne : c ≠ '\x7d' := ne_of_isNameRest (h c List.mem_cons_self) rfl
      have hstep : step ⟨.braces text quoted, w, ts⟩ c
          = some ⟨.braces (text.push c) quoted, w, ts⟩ := by
        simp [step, hne]
      have htext : text.push c ++ String.ofList cs = text ++ String.ofList (c :: cs) := by
        apply String.toList_injective
        simp
      rw [read_cons, hstep, Option.bind_some, ih fun d hd => h d (List.mem_cons_of_mem _ hd), htext]

theorem Quotes.param {name : String} (h : Graph.isVariableName name) :
    Quotes ('$' :: '\x7b' :: (name.toList ++ ['\x7d'])) [.param name true] := by
  intro w ts
  have hopen : ∀ cs, read ⟨.double, w, ts⟩ ('$' :: '\x7b' :: cs)
      = read ⟨.braces "" true, w, ts⟩ cs := fun _ => rfl
  rw [hopen, read_append, read_braces (isNameRest_of_isVariableName h), Option.bind_some]
  simp [read, step, h, Reader.push]

end EnvLayers.Shell
