import EnvLayers.Proofs.Script.Injection
import EnvLayers.Proofs.Shell.Session

/-
Module: EnvLayers.Proofs.Script.Deactivation
Purpose: What the deactivation file of a shell script holds, and what running it restores. The
  commands that write it run in the shell that the script changes afterwards, and they use three
  variables of their own.
Main exports: Sh.captureText, Sh.restoreText, Sh.run_captureBody, Sh.run_captureBody_v,
  Sh.source_capture, Sh.source_restore, Sh.deactivation_restores, Sh.single_quotes_lost
-/

namespace EnvLayers.Sh

open Shell (Bindings Word Token Reads Command Session bare literal)

/-! ### The commands that write the file -/

/-- The commands of a script before those that change the variables. -/
def captureText (env : Environment) (file : String) : String :=
  Text.Lines.render "\n"
    ((headerLines env (escape file)).tail ++ captureLines env.names (escape file))

/-- The variables that the commands use. -/
def loopNames : List String := ["v", "value", "is_defined"]

/-- Finds the value of the variable that `v` names. -/
def findCommand : Command :=
  .seq (.seq .skip (.assign "is_defined" (literal "true")))
    (.orElse (.assign "value" [.command "printenv $v" false])
      (.orElse (.assign "is_defined" []) (.call [bare "true"] none)))

/-- Asks whether the variable has a value. -/
def askCommand : Command :=
  .orElse (.call [bare "[", bare "-n", [.param "value" true], bare "]"] none)
    (.call [bare "[", bare "-n", [.param "is_defined" true], bare "]"] none)

/-- Writes the line that gives the variable its value again. -/
def keepCommand (file : String) : Command :=
  .seq .skip (.call [bare "echo", bare "export",
    [.param "v" true] ++ literal "='" ++ [.param "value" true] ++ literal "'"]
      (some ⟨literal file, true⟩))

/-- Writes the line that removes the variable. -/
def dropCommand (file : String) : Command :=
  .seq .skip (.call [bare "echo", bare "unset", [.param "v" false]] (some ⟨literal file, true⟩))

/-- What is done for each variable. -/
def captureBody (file : String) : Command :=
  .seq findCommand (.choose askCommand (keepCommand file) (dropCommand file))

def startCommand (file : String) : Command :=
  .seq .skip (.call [bare "echo", literal "echo Restoring environment"]
    (some ⟨literal file, false⟩))

def captureCommand (names : List String) (file : String) : Command :=
  if names.isEmpty then startCommand file
  else .seq (startCommand file) (.forEach "v" (names.map bare) (captureBody file))

/-- The lines of the commands, as tokens without the end of the line. -/
def captureParts (names : List String) (file : String) : List (List Token) :=
  (startTokens file :: captureTokens names file).map List.dropLast

theorem dropLast_line (t : Token) (ts : List Token) :
    (t :: (ts ++ [Token.newline])).dropLast = t :: ts := by
  rw [← List.cons_append, List.dropLast_concat]

theorem captureParts_lines (names : List String) (file : String) :
    startTokens file :: captureTokens names file
      = (captureParts names file).map (· ++ [.newline]) := by
  unfold captureParts captureTokens
  cases hempty : names.isEmpty with
  | true =>
      rfl
  | false =>
      simp [startTokens, dropLast_line]

theorem newline_not_mem_captureParts (names : List String) (file : String) :
    ∀ part ∈ captureParts names file, .newline ∉ part := by
  unfold captureParts captureTokens
  cases hempty : names.isEmpty with
  | true =>
      simp [startTokens]
  | false =>
      simp [startTokens, dropLast_line]

theorem addLines_capture (names : List String) (file : String) :
    (captureParts names file).foldlM Shell.Blocks.addLine ⟨.skip, []⟩
      = some ⟨captureCommand names file, []⟩ := by
  unfold captureParts captureTokens captureCommand
  cases hempty : names.isEmpty with
  | true =>
      rfl
  | false =>
      have hstart : Shell.Blocks.addLine ⟨.skip, []⟩ (startTokens file).dropLast
          = some ⟨startCommand file, []⟩ := rfl
      have hfor := @Shell.Blocks.addLine_for ⟨startCommand file, []⟩ rfl "v" rfl (names.map bare)
      have hline : ([Token.word (bare "for"), .word (bare "v"), .word (bare "in")]
          ++ (names.map (Token.word <| bare ·) ++ [Token.newline])).dropLast
            = .word (bare "for") :: .word (bare "v") :: .word (bare "in")
              :: (names.map bare).map Token.word := by
        simp [dropLast_line]
      simp only [Bool.false_eq_true, if_false, List.map_cons, List.foldlM_cons, hstart,
        Option.bind_eq_bind, Option.bind_some, hline, hfor]
      rfl

/-- What a shell reads the commands as. -/
theorem command_captureText {env : Environment} (file : String)
    (hnames : ∀ name ∈ env.names, Graph.isVariableName name) :
    (Shell.tokens? (captureText env file)).bind Shell.command?
      = some (captureCommand env.names file) := by
  have hlines : List.Forall₂ (fun line ts => Reads (line ++ "\n") ts)
      ((headerLines env (escape file)).tail ++ captureLines env.names (escape file))
      (startTokens file :: captureTokens env.names file) :=
    .cons (reads_start file) (reads_capture hnames file)
  have hread := Reads.render hlines
  rw [captureParts_lines] at hread
  rw [captureText, hread.tokens?_eq, Option.bind_some]
  exact Shell.command?_lines (newline_not_mem_captureParts env.names file)
    (addLines_capture env.names file)

/-! ### Writing the file -/

/-- The line that gives a variable the value of an environment, or removes it. -/
def restoreLine (E : Bindings) (name : String) : String :=
  match E name with
  | some value => "export " ++ name ++ "='" ++ value ++ "'"
  | none => "unset " ++ name

/-- The deactivation file for the variables. -/
def restoreText (E : Bindings) (names : List String) : String :=
  Text.Lines.render "\n" ("echo Restoring environment" :: names.map (restoreLine E))

section Body

variable {s : Session} {name value : String}

theorem run_startCommand (file : String) (s : Session) :
    (startCommand file).run s
      = some (s.write file "echo Restoring environment\n" false, true) := by
  have hwords : [bare "echo", literal "echo Restoring environment"].mapM (Session.field? s.values)
      = some ["echo", "echo Restoring environment"] := by
    rw [List.mapM_cons, Session.field?_name _ rfl, List.mapM_cons, Session.field?_literal]
    rfl
  simp only [startCommand, Command.run, Session.invoke, hwords, Option.bind_eq_bind,
    Option.bind_some, Shell.expand?_literal]
  rfl

/-- The value of the variable that `v` names is what programs are given. -/
theorem substitute_printenv (hv : s.values "v" = some name) (hname : Graph.isVariableName name)
    (hends : ∀ value, s.environment name = some value → value.toList.getLast? ≠ some '\n') :
    s.substitute? "printenv $v"
      = some ((s.environment name).getD "", (s.environment name).isSome) := by
  have htokens : Shell.tokens? ("printenv $v" ++ "\n")
      = some [.word (bare "printenv"), .word [.param "v" false], .newline] := rfl
  have hcall : Shell.simple? []
      ([.word (bare "printenv"), .word [.param "v" false], .newline] : List Token).dropLast
        = some (.call [bare "printenv", [.param "v" false]] none) := rfl
  have hwords : [bare "printenv", [.param "v" false]].mapM (Session.field? s.values)
      = some ["printenv", name] := by
    rw [List.mapM_cons, Session.field?_name _ rfl, List.mapM_cons,
      Session.field?_param hv (Session.isField_of_isVariableName hname)]
    rfl
  simp only [Session.substitute?, htokens, hcall, Session.invoke, hwords, Option.bind_eq_bind,
    Option.bind_some]
  cases hvalue : s.environment name with
  | some value =>
      simp [Session.call, hvalue, Session.dropNewlines_line (hends value hvalue)]
  | none =>
      have hempty : Session.dropNewlines "" = "" := rfl
      simp [Session.call, hvalue, hempty]

/-- How a session is left by the search for the value of a variable. -/
def found (s : Session) (name : String) : Session :=
  match s.environment name with
  | some value => s.set "value" value
  | none => (s.set "value" "").set "is_defined" ""

theorem run_findCommand (hv : s.values "v" = some name) (hname : Graph.isVariableName name)
    (hends : ∀ value, (s.set "is_defined" "true").environment name = some value →
      value.toList.getLast? ≠ some '\n') :
    findCommand.run s = some (found (s.set "is_defined" "true") name, true) := by
  have htrue : s.assigned? (literal "true") = some ("true", true) := rfl
  have hempty : ∀ s : Session, s.assigned? [] = some ("", true) := fun _ => rfl
  have hassigned : (s.set "is_defined" "true").assigned? [.command "printenv $v" false]
      = some (((s.set "is_defined" "true").environment name).getD "",
          ((s.set "is_defined" "true").environment name).isSome) :=
    substitute_printenv (by simpa using hv) hname hends
  simp only [findCommand, Command.run, htrue, hassigned, Option.bind_eq_bind, Option.bind_some,
    Option.pure_def, hempty]
  unfold found
  cases (s.set "is_defined" "true").environment name with
  | some value =>
      rfl
  | none =>
      rfl

theorem run_askCommand (s : Session) :
    askCommand.run s
      = some (s, (s.values "value").getD "" ≠ "" || (s.values "is_defined").getD "" ≠ "") := by
  have hask : ∀ asked, s.invoke [bare "[", bare "-n", [.param asked true], bare "]"]
      = some ⟨s, "", (s.values asked).getD "" ≠ ""⟩ := by
    intro asked
    have hwords : [bare "[", bare "-n", [.param asked true], bare "]"].mapM
        (Session.field? s.values) = some ["[", "-n", (s.values asked).getD "", "]"] := by
      rw [List.mapM_cons, List.mapM_cons, List.mapM_cons,
        Session.field?_of_expand? (Shell.expand?_param s.values asked)]
      rfl
    simp only [Session.invoke, hwords, Option.bind_eq_bind, Option.bind_some]
    rfl
  simp only [askCommand, Command.run, hask, Option.bind_eq_bind, Option.bind_some,
    Option.pure_def]
  by_cases hempty : (s.values "value").getD "" = ""
  · simp [hempty]
  · simp [hempty]

theorem run_keepCommand (file : String) (s : Session) :
    (keepCommand file).run s
      = some (s.write file ("export " ++ (s.values "v").getD "" ++ "='"
          ++ (s.values "value").getD "" ++ "'" ++ "\n") true, true) := by
  have hargument := Session.field?_of_expand? (Shell.expand?_append (Shell.expand?_append
    (Shell.expand?_append (Shell.expand?_param s.values "v") (Shell.expand?_literal s.values "='"))
    (Shell.expand?_param s.values "value")) (Shell.expand?_literal s.values "'"))
  have hwords : [bare "echo", bare "export",
      [.param "v" true] ++ literal "='" ++ [.param "value" true] ++ literal "'"].mapM
        (Session.field? s.values)
          = some ["echo", "export",
              (s.values "v").getD "" ++ "='" ++ (s.values "value").getD "" ++ "'"] := by
    rw [List.mapM_cons, Session.field?_name _ rfl, List.mapM_cons, Session.field?_name _ rfl,
      List.mapM_cons, hargument]
    rfl
  have hline : ∀ name value : String, " ".intercalate ["export", name ++ "='" ++ value ++ "'"]
      ++ "\n" = "export " ++ name ++ "='" ++ value ++ "'" ++ "\n" := by
    intro name value
    apply String.toList_injective
    simp
  simp only [keepCommand, Command.run, Session.invoke, hwords, Session.call, hline,
    Option.bind_eq_bind, Option.bind_some, Shell.expand?_literal, Option.pure_def]

theorem run_dropCommand (file : String) (hv : s.values "v" = some name)
    (hname : Graph.isVariableName name) :
    (dropCommand file).run s
      = some (s.write file ("unset " ++ name ++ "\n") true, true) := by
  have hwords : [bare "echo", bare "unset", [.param "v" false]].mapM (Session.field? s.values)
      = some ["echo", "unset", name] := by
    rw [List.mapM_cons, Session.field?_name _ rfl, List.mapM_cons, Session.field?_name _ rfl,
      List.mapM_cons, Session.field?_param hv (Session.isField_of_isVariableName hname)]
    rfl
  have hline : " ".intercalate ["unset", name] ++ "\n" = "unset " ++ name ++ "\n" := by
    apply String.toList_injective
    simp
  simp only [dropCommand, Command.run, Session.invoke, hwords, Session.call, hline,
    Option.bind_eq_bind, Option.bind_some, Shell.expand?_literal, Option.pure_def]

/-- The session in which the value of a variable is asked for. -/
def asking (s : Session) (name : String) : Session := (s.set "v" name).set "is_defined" "true"

/-- How a session is left by what is done for a variable, the file apart. -/
def looked (s : Session) (name : String) : Session := found (asking s name) name

@[simp] theorem values_asking (s : Session) (name : String) :
    (asking s name).values "v" = some name := by
  simp [asking]

@[simp] theorem values_asking_is_defined (s : Session) (name : String) :
    (asking s name).values "is_defined" = some "true" := by
  simp [asking]

/-- What is done for a variable writes the line that restores it. The value that it is restored to
is read when two of the variables of the commands are already set. -/
theorem run_captureBody (file : String) (hname : Graph.isVariableName name)
    (hends : ∀ value, (asking s name).environment name = some value →
      value.toList.getLast? ≠ some '\n') :
    (captureBody file).run (s.set "v" name)
      = some ((looked s name).write file (restoreLine (asking s name).environment name ++ "\n")
          true, true) := by
  have hfind : findCommand.run (s.set "v" name) = some (found (asking s name) name, true) :=
    run_findCommand (by simp) hname hends
  simp only [captureBody, Command.run, hfind, Option.bind_eq_bind, Option.bind_some]
  unfold looked found restoreLine
  cases (asking s name).environment name with
  | some value =>
      simp [run_askCommand, run_keepCommand]
  | none =>
      have hv : (((asking s name).set "value" "").set "is_defined" "").values "v"
          = some name := by
        simp
      simpa [run_askCommand] using run_dropCommand file hv hname

theorem files_looked (s : Session) (name : String) : (looked s name).files = s.files := by
  unfold looked found
  split <;> rfl

/-- Setting a variable of the commands changes no other that programs are given. -/
theorem environment_set_used {s' : Session} {used : String} (hused : used ∈ loopNames)
    (hname : name ∈ loopNames → s.environment name = none)
    (h : s'.environment name = s.environment name) (value : String) :
    (s'.set used value).environment name = s.environment name := by
  rw [Session.environment_set (fun heq => ?_), h]
  rw [← heq, h]
  exact hname (heq ▸ hused)

theorem environment_asking (hname : name ∈ loopNames → s.environment name = none)
    (text : String) : (asking s text).environment name = s.environment name :=
  environment_set_used (by decide) hname (environment_set_used (by decide) hname rfl text) "true"

/-- What is done for a variable changes nothing that programs are given, unless they are given a
variable of the commands. -/
theorem environment_looked (hname : name ∈ loopNames → s.environment name = none) (text : String) :
    (looked s text).environment name = s.environment name := by
  have hstart := environment_asking hname text
  unfold looked found
  split
  · next value _ =>
      exact environment_set_used (by decide) hname hstart value
  · exact environment_set_used (by decide) hname
      (environment_set_used (by decide) hname hstart "") ""

/-- Where programs are given a variable `v`, it is overwritten by the loop before its value is read,
so the file gives it its own name as a value. -/
theorem run_captureBody_v (file : String) (h : (s.environment "v").isSome) :
    (captureBody file).run (s.set "v" "v")
      = some ((looked s "v").write file "export v='v'\n" true, true) := by
  have hseen : (asking s "v").environment "v" = some "v" := by
    have hname : "v" ≠ "is_defined" := by decide
    rw [asking, Session.environment_set fun heq => absurd heq hname,
      Session.environment_set_of_isSome h]
  have hends : ∀ value, (asking s "v").environment "v" = some value →
      value.toList.getLast? ≠ some '\n' := by
    intro value hvalue
    cases hseen.symm.trans hvalue
    decide
  have hbody := run_captureBody file (rfl : Graph.isVariableName "v") hends
  have hline : restoreLine (asking s "v").environment "v"
      = "export v='v'" := by
    rw [restoreLine, hseen]
    rfl
  rw [hbody, hline]
  rfl

end Body

theorem restoreLine_congr {E E' : Bindings} {name : String} (h : E name = E' name) :
    restoreLine E name = restoreLine E' name := by
  rw [restoreLine, restoreLine, h]

/-- The loop writes one line for each variable. What programs are given is the same in each round,
as far as the variables are concerned that are still to come. -/
theorem foldlM_captureBody (file : String) {E : Bindings} {names : List String}
    (hnames : ∀ name ∈ names, Graph.isVariableName name)
    (hends : ∀ name ∈ names, ∀ value, E name = some value → value.toList.getLast? ≠ some '\n')
    (hloop : ∀ name ∈ names, name ∈ loopNames → E name = none) {s : Session}
    (henv : ∀ name ∈ names, s.environment name = E name) (success : Bool) {text : String}
    (hfile : s.files file = some text) :
    ∃ r, names.foldlM (fun r name => (captureBody file).run (r.1.set "v" name)) (s, success)
        = some r
      ∧ r.1.files file
        = some (text ++ Text.Lines.render "\n" (names.map (restoreLine E))) := by
  induction names generalizing s success text with
  | nil =>
      exact ⟨(s, success), rfl, by simpa [Text.Lines.render] using hfile⟩
  | cons name names ih =>
      have hhidden : ∀ other ∈ name :: names, other ∈ loopNames → s.environment other = none := by
        intro other hother hused
        rw [henv other hother]
        exact hloop other hother hused
      have hseen : (asking s name).environment name = E name := by
        rw [environment_asking (hhidden name List.mem_cons_self), henv name List.mem_cons_self]
      have hbody := run_captureBody file (hnames name List.mem_cons_self)
        (hseen ▸ hends name List.mem_cons_self)
      rw [restoreLine_congr hseen] at hbody
      have hnext : ∀ other ∈ names, ((looked s name).write file (restoreLine E name ++ "\n")
          true).environment other = E other := by
        intro other hother
        rw [Session.environment_write,
          environment_looked (hhidden other (List.mem_cons_of_mem _ hother)),
          henv other (List.mem_cons_of_mem _ hother)]
      have hwritten : ((looked s name).write file (restoreLine E name ++ "\n") true).files file
          = some (text ++ (restoreLine E name ++ "\n")) := by
        simp [Session.write, files_looked, hfile]
      obtain ⟨r, hrun, hr⟩ := ih (fun other h => hnames other (List.mem_cons_of_mem _ h))
        (fun other h => hends other (List.mem_cons_of_mem _ h))
        (fun other h => hloop other (List.mem_cons_of_mem _ h)) hnext true hwritten
      refine ⟨r, ?_, ?_⟩
      · rw [List.foldlM_cons, hbody]
        exact hrun
      · rw [hr]
        simp [Text.Lines.render, String.append_assoc]

/-- The commands write the deactivation file. -/
theorem source_capture {env : Environment} (file : String) {s : Session}
    (hnames : ∀ name ∈ env.names, Graph.isVariableName name)
    (hends : ∀ name ∈ env.names, ∀ value, s.environment name = some value →
      value.toList.getLast? ≠ some '\n')
    (hloop : ∀ name ∈ env.names, name ∈ loopNames → s.environment name = none) :
    ∃ s', s.source (captureText env file) = some s'
      ∧ s'.files file = some (restoreText s.environment env.names) := by
  have hsource : s.source (captureText env file)
      = ((captureCommand env.names file).run s).map Prod.fst := by
    have hbind : s.source (captureText env file)
        = ((Shell.tokens? (captureText env file)).bind Shell.command?).bind
            fun command => (command.run s).map Prod.fst := (Option.bind_assoc ..).symm
    rw [hbind, command_captureText file hnames, Option.bind_some]
  rw [hsource]
  unfold captureCommand restoreText
  cases hempty : env.names.isEmpty with
  | true =>
      refine ⟨s.write file "echo Restoring environment\n" false, ?_, ?_⟩
      · rw [if_pos rfl, run_startCommand, Option.map_some]
      · simp [Session.write, List.isEmpty_iff.mp hempty, Text.Lines.render]
  | false =>
      have hfields : (env.names.map bare).mapM (Session.field? (s.write file
          "echo Restoring environment\n" false).values) = some env.names :=
        Session.fields_names _ hnames
      obtain ⟨r, hrun, hr⟩ := foldlM_captureBody file hnames hends hloop
        (s := s.write file "echo Restoring environment\n" false) (fun _ _ => rfl) true
        (Function.update_self file _ _)
      refine ⟨r.1, ?_, ?_⟩
      · simp only [Bool.false_eq_true, if_false, Command.run, run_startCommand,
          Option.bind_eq_bind, Option.bind_some, hfields]
        exact congrArg (Option.map Prod.fst) hrun
      · rw [hr]
        simp [Text.Lines.render]

/-! ### Reading the file -/

/-- The call that says what the file is for. -/
def echoCall : List Word := [bare "echo", bare "Restoring", bare "environment"]

theorem reads_echoCall : Reads ("echo Restoring environment" ++ "\n") (Shell.callTokens echoCall) :=
  rfl

theorem isCall_echoCall : Shell.IsCall echoCall := (rfl : Shell.keyword? (bare "echo") = none)

theorem invoke_echoCall (t : Session) :
    (t.invoke echoCall).map Shell.Result.session = some t := rfl

/-- The call that gives a variable the value of an environment, or removes it. -/
def restoreCall (E : Bindings) (name : String) : List Word :=
  match E name with
  | some value => [bare "export", bare name ++ bare "=" ++ literal value]
  | none => [bare "unset", bare name]

/-- The variable as it is in a shell that is started in the environment. -/
def restoreVar (E : Bindings) (t : Session) (name : String) : Session :=
  { t with vars := Function.update t.vars name ((E name).map (⟨·, true⟩)) }

variable {E : Bindings}

/-- The value that a line gives is read as it was written, unless it has a single quote. -/
theorem reads_restoreLine {name : String} (hname : Graph.isVariableName name)
    (hquotes : ∀ value, E name = some value → '\x27' ∉ value.toList) :
    Reads (restoreLine E name ++ "\n") (Shell.callTokens (restoreCall E name)) := by
  unfold restoreLine restoreCall
  cases hvalue : E name with
  | some value =>
      have hcommand : Shell.read ⟨.between, [], []⟩ "export ".toList
          = some ⟨.between, [], [.word (bare "export")]⟩ := rfl
      have hopen : ∀ w ts, Shell.read ⟨.word, w, ts⟩ "='".toList
          = some ⟨.single, w ++ bare "=", ts⟩ := fun _ _ => rfl
      have hend : ∀ w ts, Shell.read ⟨.single, w, ts⟩ ("'".toList ++ "\n".toList)
          = some ⟨.between, [], ts ++ [.word w] ++ [.newline]⟩ := fun _ _ => rfl
      simp only [Reads, String.toList_append, List.append_assoc, Shell.read_append, hcommand,
        Option.bind_some, Shell.read_name hname, hopen, Shell.read_single (hquotes value hvalue)]
      rw [← Shell.read_append, hend]
      simp [Shell.callTokens, literal]
  | none =>
      have hcommand : Reads "unset " [.word (bare "unset")] := rfl
      have hline := hcommand.append (Reads.name_newline hname)
      rwa [← String.append_assoc] at hline

theorem invoke_restoreCall (t : Session) {name : String} (hname : Graph.isVariableName name) :
    (t.invoke (restoreCall E name)).map Shell.Result.session = some (restoreVar E t name) := by
  unfold restoreCall restoreVar
  cases E name with
  | some value =>
      exact congrArg (Option.map Shell.Result.session) (Session.invoke_export t hname value)
  | none =>
      exact congrArg (Option.map Shell.Result.session) (Session.invoke_unset t hname)

theorem isCall_restoreCall (E : Bindings) (name : String) : Shell.IsCall (restoreCall E name) := by
  unfold restoreCall
  split
  · exact (rfl : Shell.keyword? (bare "export") = none)
  · exact (rfl : Shell.keyword? (bare "unset") = none)

/-- The calls give the variables their values in order. -/
theorem foldlM_restoreCall {names : List String}
    (hnames : ∀ name ∈ names, Graph.isVariableName name) (t : Session) :
    (names.map (restoreCall E)).foldlM
        (fun s words => (s.invoke words).map Shell.Result.session) t
      = some (names.foldl (restoreVar E) t) := by
  induction names generalizing t with
  | nil =>
      rfl
  | cons name names ih =>
      rw [List.map_cons, List.foldlM_cons, invoke_restoreCall t (hnames name List.mem_cons_self)]
      exact ih (fun other hother => hnames other (List.mem_cons_of_mem _ hother)) _

theorem vars_foldl_restoreVar (names : List String) (t : Session) (name : String) :
    (names.foldl (restoreVar E) t).vars name
      = if name ∈ names then (E name).map (⟨·, true⟩) else t.vars name := by
  induction names generalizing t with
  | nil =>
      rfl
  | cons other names ih =>
      rw [List.foldl_cons, ih]
      by_cases hmem : name ∈ names
      · rw [if_pos hmem, if_pos (List.mem_cons_of_mem _ hmem)]
      · by_cases heq : name = other
        · subst heq
          simp [restoreVar, hmem]
        · simp [restoreVar, hmem, heq]

/-- The file gives the variables the values of the environment again, in whatever shell it is
run. -/
theorem source_restore {names : List String}
    (hnames : ∀ name ∈ names, Graph.isVariableName name)
    (hquotes : ∀ name ∈ names, ∀ value, E name = some value → '\x27' ∉ value.toList)
    (t : Session) :
    t.source (restoreText E names) = some (names.foldl (restoreVar E) t) := by
  have hlines : List.Forall₂ (fun line ts => Reads (line ++ "\n") ts)
      ("echo Restoring environment" :: names.map (restoreLine E))
      ((echoCall :: names.map (restoreCall E)).map Shell.callTokens) := by
    rw [List.map_cons, List.map_map]
    refine .cons reads_echoCall ?_
    rw [List.forall₂_map_left_iff, List.forall₂_map_right_iff, List.forall₂_same]
    intro name hname
    exact reads_restoreLine (hnames name hname) (hquotes name hname)
  have hcalls : ∀ words ∈ echoCall :: names.map (restoreCall E), Shell.IsCall words := by
    intro words hwords
    rcases List.mem_cons.mp hwords with rfl | hwords
    · exact isCall_echoCall
    · obtain ⟨name, -, rfl⟩ := List.mem_map.mp hwords
      exact isCall_restoreCall E name
  rw [restoreText, Session.source_calls hcalls (Reads.render hlines), List.foldlM_cons,
    invoke_echoCall]
  exact foldlM_restoreCall hnames t

/-- A script starts with the commands that write the deactivation file. Run in any shell, they write
a file that gives each variable of the environment what programs were given before, in whatever
shell it is run, and changes nothing else: a variable that they were not given is removed. The
commands drop the line ends that a value closes with, write single quotes as they are, and use three
variables of their own. -/
theorem deactivation_restores (env : Environment) (file : String) (s : Session)
    (hnames : ∀ name ∈ env.names, Graph.isVariableName name)
    (hends : ∀ name ∈ env.names, ∀ value, s.environment name = some value →
      value.toList.getLast? ≠ some '\n')
    (hquotes : ∀ name ∈ env.names, ∀ value, s.environment name = some value →
      '\x27' ∉ value.toList)
    (hloop : ∀ name ∈ env.names, name ∈ loopNames → s.environment name = none) :
    script env file
        = "# " ++ env.scope.name ++ " environment for " ++ env.consumer ++ "\n"
          ++ captureText env file ++ "\n" ++ Text.Lines.render "\n" (assignmentLines env)
      ∧ ∃ s' text, s.source (captureText env file) = some s' ∧ s'.files file = some text
        ∧ ∀ t : Session, ∃ t', t.source text = some t' ∧ ∀ name, t'.vars name
          = if name ∈ env.names then (s.environment name).map (⟨·, true⟩) else t.vars name := by
  constructor
  · simp [script, captureText, headerLines, Text.Lines.render, String.append_assoc]
  · obtain ⟨s', hcapture, hfile⟩ := source_capture file hnames hends hloop
    refine ⟨s', _, hcapture, hfile, fun t => ?_⟩
    exact ⟨_, source_restore hnames hquotes t, vars_foldl_restoreVar env.names t⟩

/-- Values with characters that mean something to a shell, for all variables but one. -/
def outer : Bindings := fun name =>
  if name = "STALE" then none else some "say \"hi\",\n  $\x7bPATH\x7d \\ \x60ls\x60;"

theorem deactivation_restores_quoting :
    ∃ s' text, (Session.ofOuter outer).source (captureText quoting "/out/deactivate") = some s'
      ∧ s'.files "/out/deactivate" = some text
      ∧ ∀ t : Session, ∃ t', t.source text = some t' ∧ t'.environment "GREETING" = outer "GREETING"
        ∧ t'.environment "_1" = outer "_1" ∧ t'.vars "STALE" = none
        ∧ t'.vars "HOME" = t.vars "HOME" := by
  have hvalue : ∀ {name value}, (Session.ofOuter outer).environment name = some value →
      value = "say \"hi\",\n  $\x7bPATH\x7d \\ \x60ls\x60;" := by
    intro name value h
    rw [Session.environment_ofOuter, outer] at h
    split at h
    · cases h
    · exact (Option.some.inj h).symm
  obtain ⟨_, s', text, hcapture, hfile, hrestore⟩ := deactivation_restores quoting
    "/out/deactivate" (Session.ofOuter outer) (List.all_eq_true.mp rfl)
    (by intro _ _ _ h; rw [hvalue h]; decide) (by intro _ _ _ h; rw [hvalue h]; decide)
    (by decide)
  refine ⟨s', text, hcapture, hfile, fun t => ?_⟩
  obtain ⟨t', ht, hvars⟩ := hrestore t
  refine ⟨t', ht, ?_, ?_, ?_, ?_⟩
  · rw [Session.environment, hvars]
    rfl
  · rw [Session.environment, hvars]
    rfl
  · rw [hvars]
    rfl
  · rw [hvars]
    rfl

/-- A value between single quotes. -/
def quoted : Bindings := fun name => if name = "FLAGS" then some "'-O2'" else none

theorem source_restore_quoted (t : Session) :
    t.source (restoreText quoted ["FLAGS"]) = some (t.setExported "FLAGS" "-O2") := by
  have hline : restoreLine quoted "FLAGS" = "export FLAGS=''-O2''" := by
    decide
  have hexport : Reads (restoreLine quoted "FLAGS" ++ "\n")
      (Shell.callTokens [bare "export", bare "FLAGS=-O2"]) := by
    rw [hline]
    rfl
  have hcalls : ∀ words ∈ [echoCall, [bare "export", bare "FLAGS=-O2"]], Shell.IsCall words := by
    have hexportCall : Shell.IsCall [bare "export", bare "FLAGS=-O2"] :=
      (rfl : Shell.keyword? (bare "export") = none)
    exact List.forall_mem_cons.mpr ⟨isCall_echoCall, List.forall_mem_singleton.mpr hexportCall⟩
  rw [restoreText, List.map_singleton,
    Session.source_calls hcalls (Reads.render (.cons reads_echoCall (.cons hexport .nil)))]
  rfl

/-- The single quotes of a value are read as the quotes of the word that it stands in, so they are
lost. -/
theorem single_quotes_lost :
    ∃ env, (flagged [.append "FLAGS" "-g"]).resolve "app" .run [] = .ok env
      ∧ (∀ name ∈ env.names, Graph.isVariableName name)
      ∧ ∃ s' text, (Session.ofOuter quoted).source (captureText env "/out/deactivate") = some s'
        ∧ s'.files "/out/deactivate" = some text
        ∧ ∀ t : Session, ∃ t', t.source text = some t' ∧ quoted "FLAGS" = some "'-O2'"
          ∧ t'.environment "FLAGS" = some "-O2" := by
  have hresolved : (flagged [.append "FLAGS" "-g"]).resolve "app" .run []
      = .ok (Graph.ofOps "app" .run none [.append "FLAGS" "-g"]) := by
    cbv
  have hnames : (Graph.ofOps "app" .run none [.append "FLAGS" "-g"]).names = ["FLAGS"] := by rfl
  have hvalid : ∀ name ∈ (Graph.ofOps "app" .run none [.append "FLAGS" "-g"]).names,
      Graph.isVariableName name := List.all_eq_true.mp rfl
  have hends : ∀ name ∈ (Graph.ofOps "app" .run none [.append "FLAGS" "-g"]).names, ∀ value,
      (Session.ofOuter quoted).environment name = some value →
        value.toList.getLast? ≠ some '\n' := by
    intro name hname value hvalue
    rw [hnames, List.mem_singleton] at hname
    subst hname
    cases hvalue
    decide
  obtain ⟨s', hcapture, hfile⟩ := source_capture "/out/deactivate" hvalid hends (by decide)
  rw [hnames, Session.environment_ofOuter] at hfile
  refine ⟨_, hresolved, hvalid, s', _, hcapture, hfile, fun t => ?_⟩
  exact ⟨_, source_restore_quoted t, rfl, by simp [Session.environment, Session.setExported]⟩

end EnvLayers.Sh
