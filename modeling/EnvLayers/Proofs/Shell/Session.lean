import EnvLayers.Proofs.Shell.Command
import EnvLayers.Proofs.Shell.Run
import Mathlib.Data.List.DropRight

/-
Module: EnvLayers.Proofs.Shell.Session
Purpose: Running the commands of a script in a shell: its variables, of which only the exported ones
  are given to the programs that it starts, and the files that it writes. `printenv` and `echo`
  print their texts as they are. A command that is not covered has no run.
Main exports: Shell.Session, Shell.Session.environment, Shell.Command.run, Shell.Session.source,
  Shell.Session.source_calls
-/

namespace EnvLayers.Shell

/-- The value of a variable, and whether programs are given it. -/
structure Var where
  value : String
  exported : Bool
deriving Repr, DecidableEq

/-- What a shell holds: the variables that are set, and the texts of the files. -/
structure Session where
  vars : String → Option Var
  files : Bindings

/-- What a call does: how it leaves the session, what it prints and whether it succeeds. -/
structure Result where
  session : Session
  output : String
  success : Bool

namespace Session

/-- A shell that is started in an environment, with no file yet. -/
def ofOuter (E : Bindings) : Session where
  vars name := (E name).map (⟨·, true⟩)
  files _ := none

/-- The values of the variables, exported or not. -/
def values (s : Session) : Bindings := fun name => (s.vars name).map Var.value

/-- What programs are given. -/
def environment (s : Session) : Bindings := fun name =>
  ((s.vars name).filter Var.exported).map Var.value

/-- Gives a variable a value. It stays exported if it was. -/
def set (s : Session) (name value : String) : Session :=
  { s with vars := Function.update s.vars name (some ⟨value, (s.vars name).any Var.exported⟩) }

/-- Gives a variable a value and exports it. -/
def setExported (s : Session) (name value : String) : Session :=
  { s with vars := Function.update s.vars name (some ⟨value, true⟩) }

def unset (s : Session) (name : String) : Session :=
  { s with vars := Function.update s.vars name none }

/-- Sends a text to a file. -/
def write (s : Session) (file text : String) (appends : Bool) : Session :=
  let before := if appends then (s.files file).getD "" else ""
  { s with files := Function.update s.files file (some (before ++ text)) }

/-! ### Words -/

/-- A value that stays one field with one meaning where it is not quoted. -/
def isField (value : String) : Bool :=
  value ≠ "" && value.toList.all fun c => !(isBlank c || c == '\n' || isPattern c)

/-- The text of a piece of an argument. -/
def piece? (E : Bindings) : Piece → Option String
  | .param name false => (E name).filter isField
  | p => p.text? E

/-- The text of the pieces of an argument, one after the other. -/
def pieces? (E : Bindings) : Word → Option String
  | [] => some ""
  | p :: w => do return (← piece? E p) ++ (← pieces? E w)

/-- The text of an argument. An opening bracket alone begins a pattern that nothing matches, so it
stands for itself. -/
def field? (E : Bindings) (w : Word) : Option String :=
  if w = bare "[" then some "[" else pieces? E w

/-! ### Calls -/

/-- One argument of an export with its value. -/
def export? (s : Session) (text : String) : Option Session := do
  let (name, value) ← Text.cutFirst '=' text.toList
  if Graph.isVariableName (String.ofList name) then
    some (s.setExported (String.ofList name) (String.ofList value))
  else none

def unset? (s : Session) (name : String) : Option Session :=
  if Graph.isVariableName name then some (s.unset name) else none

/-- A call of a command by its name, with its arguments. -/
def call (s : Session) : List String → Option Result
  | "echo" :: texts => some ⟨s, " ".intercalate texts ++ "\n", true⟩
  | ["true"] => some ⟨s, "", true⟩
  | ["[", "-n", text, "]"] => some ⟨s, "", text ≠ ""⟩
  | ["printenv", name] =>
    match s.environment name with
    | some value => some ⟨s, value ++ "\n", true⟩
    | none => some ⟨s, "", false⟩
  | "export" :: texts => do return ⟨← texts.foldlM export? s, "", true⟩
  | "unset" :: names => do return ⟨← names.foldlM unset? s, "", true⟩
  | _ => none

/-- A call with the arguments that its words stand for. -/
def invoke (s : Session) (words : List Word) : Option Result := do
  s.call (← words.mapM (field? s.values))

/-- An output without the line ends that it closes with. -/
def dropNewlines (text : String) : String := String.ofList (text.toList.rdropWhile (· == '\n'))

/-- What a command substitution stands for, and whether its command succeeds. Its command is one
call, which changes nothing outside of it. -/
def substitute? (s : Session) (text : String) : Option (String × Bool) := do
  let tokens ← tokens? (text ++ "\n")
  match ← simple? [] tokens.dropLast with
  | .call words none => do
    let r ← s.invoke words
    return (dropNewlines r.output, r.success)
  | _ => none

/-- The value of an assignment, and whether the assignment succeeds. The value is not split and
matches no file names. -/
def assigned? (s : Session) : Word → Option (String × Bool)
  | [.command text _] => s.substitute? text
  | w => (expand? s.values w).map (·, true)

end Session

/-! ### Commands -/

/-- How a command leaves the session, and whether it succeeds. -/
def Command.run : Command → Session → Option (Session × Bool)
  | .skip, s => some (s, true)
  | .assign name value, s => do
    let (text, success) ← s.assigned? value
    return (s.set name text, success)
  | .call words target, s => do
    let r ← s.invoke words
    match target with
    | none => return (r.session, r.success)
    | some ⟨file, appends⟩ =>
      return (r.session.write (← expand? s.values file) r.output appends, r.success)
  | .orElse first second, s => do
    let (s, success) ← first.run s
    if success then return (s, true) else second.run s
  | .seq first second, s => do
    let (s, _) ← first.run s
    second.run s
  | .choose condition yes no, s => do
    let (s, success) ← condition.run s
    if success then yes.run s else no.run s
  | .forEach name words body, s => do
    let texts ← words.mapM (Session.field? s.values)
    texts.foldlM (fun (s, _) text => body.run (s.set name text)) (s, true)

namespace Session

/-- Runs a text of commands. -/
def source (s : Session) (text : String) : Option Session := do
  let command ← command? (← tokens? text)
  (command.run s).map Prod.fst

/-! ### Variables -/

theorem environment_ofOuter (E : Bindings) : (ofOuter E).environment = E := by
  funext name
  cases h : E name with
  | none =>
      simp [environment, ofOuter, h]
  | some value =>
      simp [environment, ofOuter, h]

@[simp] theorem values_set (s : Session) (name value : String) :
    (s.set name value).values = Function.update s.values name (some value) := by
  funext other
  by_cases h : other = name
  · subst h
    simp [values, set]
  · simp [values, set, h]

@[simp] theorem environment_write (s : Session) (file text : String) (appends : Bool) :
    (s.write file text appends).environment = s.environment := rfl

/-- A variable that programs are not given can be set without their noticing. -/
theorem environment_set {s : Session} {name other : String}
    (h : other = name → s.environment name = none) (value : String) :
    (s.set name value).environment other = s.environment other := by
  by_cases heq : other = name
  · subst heq
    have hhidden : (s.vars other).any Var.exported = false := by
      have hnone := h rfl
      cases hvar : s.vars other with
      | none =>
          rfl
      | some var =>
          simpa [environment, hvar, Option.filter] using hnone
    rw [h rfl]
    simp [environment, set, hhidden]
  · simp [environment, set, heq]

/-- A variable that programs are given stays so when it is set. -/
theorem environment_set_of_isSome {s : Session} {name : String}
    (h : (s.environment name).isSome) (value : String) :
    (s.set name value).environment name = some value := by
  have hexported : (s.vars name).any Var.exported = true := by
    cases hvar : s.vars name with
    | none =>
        simp [environment, hvar] at h
    | some var =>
        simpa [environment, hvar, Option.filter] using h
  simp [environment, set, hexported]

/-! ### Arguments -/

theorem pieces?_of_expand? {E : Bindings} {w : Word} {text : String} (h : expand? E w = some text) :
    pieces? E w = some text := by
  induction w generalizing text with
  | nil =>
      exact h
  | cons p w ih =>
      simp only [expand?, Option.pure_def, Option.bind_eq_bind, Option.bind_eq_some_iff] at h
      obtain ⟨start, hp, rest, hw, htext⟩ := h
      have hpiece : piece? E p = some start := by
        cases p with
        | param name quoted =>
            cases quoted with
            | false =>
                cases hp
            | true =>
                exact hp
        | char c quoted =>
            exact hp
        | command output quoted =>
            exact hp
      simp only [pieces?, hpiece, ih hw, Option.pure_def, Option.bind_eq_bind, Option.bind_some]
      exact htext

/-- What stands for one text as a value stands for it as an argument. -/
theorem field?_of_expand? {E : Bindings} {w : Word} {text : String} (h : expand? E w = some text) :
    field? E w = some text := by
  have hbracket : w ≠ bare "[" := by
    rintro rfl
    cases h
  rw [field?, if_neg hbracket]
  exact pieces?_of_expand? h

theorem field?_literal (E : Bindings) (text : String) : field? E (literal text) = some text :=
  field?_of_expand? (expand?_literal E text)

theorem field?_name (E : Bindings) {name : String} (h : Graph.isVariableName name) :
    field? E (bare name) = some name :=
  field?_of_expand? (expand?_name E h)

theorem fields_names (E : Bindings) {names : List String}
    (h : ∀ name ∈ names, Graph.isVariableName name) :
    (names.map bare).mapM (field? E) = some names := by
  induction names with
  | nil =>
      rfl
  | cons name names ih =>
      rw [List.map_cons, List.mapM_cons, field?_name E (h name List.mem_cons_self),
        ih fun other hother => h other (List.mem_cons_of_mem _ hother)]
      rfl

theorem field?_param {E : Bindings} {name value : String} (h : E name = some value)
    (hvalue : isField value) : field? E [.param name false] = some value := by
  have hbracket : ([.param name false] : Word) ≠ bare "[" := by
    intro heq
    cases heq
  have hpiece : piece? E (.param name false) = some value := by
    rw [piece?, h, Option.filter_some, if_pos hvalue]
  rw [field?, if_neg hbracket]
  simp [pieces?, hpiece]

/-- The name of a variable need not be quoted. -/
theorem isField_of_isVariableName {name : String} (h : Graph.isVariableName name) :
    isField name := by
  have hempty : name ≠ "" := by
    rintro rfl
    cases h
  have hchars : ∀ c ∈ name.toList, !(isBlank c || c == '\n' || isPattern c) := by
    intro c hc
    have hrest := isNameRest_of_isVariableName h c hc
    have hne : ∀ d, Graph.isNameRest d = false → c ≠ d := fun _ hd => ne_of_isNameRest hrest hd
    simp [isBlank, isPattern, hne ' ' rfl, hne '\t' rfl, hne '\n' rfl, hne '*' rfl, hne '?' rfl,
      hne '[' rfl, hne '~' rfl]
  simpa [isField, hempty] using hchars

/-! ### Outputs -/

/-- A line without its end is what was printed. -/
theorem dropNewlines_line {value : String} (h : value.toList.getLast? ≠ some '\n') :
    dropNewlines (value ++ "\n") = value := by
  have hline : (value ++ "\n").toList = value.toList ++ ['\n'] := String.toList_append
  have hkept : value.toList.rdropWhile (· == '\n') = value.toList := by
    rw [List.rdropWhile_eq_self_iff]
    intro hne hlast
    have hc : value.toList.getLast hne = '\n' := beq_iff_eq.mp hlast
    exact h (by rw [List.getLast?_eq_some_getLast hne, hc])
  rw [dropNewlines, hline, List.rdropWhile_concat_pos _ _ _ (by rfl), hkept,
    String.ofList_toList]

/-! ### Calls that change a variable -/

theorem invoke_export (s : Session) {name : String} (h : Graph.isVariableName name)
    (value : String) :
    s.invoke [bare "export", bare name ++ bare "=" ++ literal value]
      = some ⟨s.setExported name value, "", true⟩ := by
  have hargument := field?_of_expand? (expand?_append (expand?_append (expand?_name s.values h)
    (show expand? s.values (bare "=") = some "=" from rfl)) (expand?_literal s.values value))
  have hwords : [bare "export", bare name ++ bare "=" ++ literal value].mapM (field? s.values)
      = some ["export", name ++ "=" ++ value] := by
    rw [List.mapM_cons, field?_name _ rfl, List.mapM_cons, hargument]
    rfl
  have hexport : s.export? (name ++ "=" ++ value) = some (s.setExported name value) := by
    rw [export?, cutFirst_assignment h]
    simp [h]
  simp only [invoke, hwords, call, List.foldlM_cons, List.foldlM_nil, hexport, Option.bind_eq_bind,
    Option.bind_some, Option.pure_def]

theorem invoke_unset (s : Session) {name : String} (h : Graph.isVariableName name) :
    s.invoke [bare "unset", bare name] = some ⟨s.unset name, "", true⟩ := by
  have hwords : [bare "unset", bare name].mapM (field? s.values) = some ["unset", name] := by
    rw [List.mapM_cons, field?_name _ rfl, List.mapM_cons, field?_name _ h]
    rfl
  have hunset : s.unset? name = some (s.unset name) := if_pos h
  simp only [invoke, hwords, call, List.foldlM_cons, List.foldlM_nil, hunset, Option.bind_eq_bind,
    Option.bind_some, Option.pure_def]

end Session

/-! ### Calls one after the other -/

/-- The tokens of a line that is a call. -/
def callTokens (words : List Word) : List Token := words.map Token.word ++ [.newline]

/-- The command of lines that are calls. -/
def Command.calls (before : Command) (lines : List (List Word)) : Command :=
  lines.foldl (fun c words => .seq c (.call words none)) before

/-- The words begin with the name of a command and an argument. -/
def IsCall : List Word → Prop
  | w :: _ :: _ => keyword? w = none
  | _ => False

theorem simple?_words (before words : List Word) (h : 1 < (before ++ words).length) :
    simple? before (words.map Token.word) = some (.call (before ++ words) none) := by
  induction words generalizing before with
  | nil =>
      rw [List.append_nil] at h ⊢
      match before with
      | _ :: _ :: _ =>
          rfl
  | cons w words ih =>
      have hstep : simple? before ((w :: words).map Token.word)
          = simple? (before ++ [w]) (words.map Token.word) := by
        cases words <;> rfl
      rw [hstep, ih (before ++ [w]) (by simpa using h), List.append_assoc, List.singleton_append]

theorem alternatives?_words (before : List Token) (words : List Word) :
    alternatives? before (words.map Token.word) = simple? [] (before ++ words.map Token.word) := by
  induction words generalizing before with
  | nil =>
      rw [List.map_nil, List.append_nil]
      rfl
  | cons w words ih =>
      have hstep : alternatives? before ((w :: words).map Token.word)
          = alternatives? (before ++ [.word w]) (words.map Token.word) := rfl
      rw [hstep, ih, List.append_assoc, List.singleton_append, List.map_cons]

theorem addLine_call {b : Blocks} (hhead : b.atHead = false) {words : List Word}
    (h : IsCall words) :
    b.addLine (words.map Token.word)
      = some { b with current := .seq b.current (.call words none) } := by
  match words, h with
  | w :: x :: rest, hkeyword =>
      have hcall := simple?_words [] (w :: x :: rest) (by simp)
      have hcommand : alternatives? [] ((w :: x :: rest).map Token.word)
          = some (.call (w :: x :: rest) none) := by
        rw [alternatives?_words, List.nil_append, hcall, List.nil_append]
      rw [List.map_cons] at hcommand ⊢
      simp only [Blocks.addLine, show keyword? w = none from hkeyword, hhead, hcommand]
      rfl

theorem command?_calls {lines : List (List Word)} (h : ∀ words ∈ lines, IsCall words) :
    command? (lines.map callTokens).flatten = some (Command.calls .skip lines) := by
  have hread : ∀ c, (lines.map fun words => words.map Token.word).foldlM Blocks.addLine ⟨c, []⟩
      = some ⟨Command.calls c lines, []⟩ := by
    induction lines with
    | nil =>
        intro c
        rfl
    | cons words lines ih =>
        intro c
        rw [List.map_cons, List.foldlM_cons, addLine_call rfl (h words List.mem_cons_self)]
        exact ih (fun other hother => h other (List.mem_cons_of_mem _ hother)) _
  have hends : ∀ line ∈ lines.map fun words => words.map Token.word, .newline ∉ line := by
    simp
  have hlines := command?_lines hends (hread .skip)
  rw [List.map_map] at hlines
  exact hlines

/-- Lines that are calls run one after the other. -/
theorem run_calls (before : Command) (lines : List (List Word)) (s : Session) :
    ((Command.calls before lines).run s).map Prod.fst
      = ((before.run s).map Prod.fst).bind fun s =>
          lines.foldlM (fun s words => (s.invoke words).map Result.session) s := by
  induction lines generalizing before with
  | nil =>
      exact (Option.bind_fun_some _).symm
  | cons words lines ih =>
      have hline : Command.calls before (words :: lines)
          = Command.calls (.seq before (.call words none)) lines := rfl
      rw [hline, ih]
      cases hbefore : before.run s with
      | none =>
          simp [Command.run, hbefore]
      | some r =>
          cases hcall : r.1.invoke words with
          | none =>
              simp [Command.run, hbefore, hcall]
          | some r' =>
              simp [Command.run, hbefore, hcall]

namespace Session

/-- A text of calls runs them in order. -/
theorem source_calls {text : String} {lines : List (List Word)}
    (hcalls : ∀ words ∈ lines, IsCall words) (h : Reads text (lines.map callTokens).flatten)
    (s : Session) :
    s.source text = lines.foldlM (fun s words => (s.invoke words).map Result.session) s := by
  have hrun := run_calls .skip lines s
  rw [source, h.tokens?_eq, Option.bind_eq_bind, Option.bind_some, command?_calls hcalls]
  exact hrun

end Session

end EnvLayers.Shell
