import EnvLayers.Proofs.Batch.Output
import EnvLayers.Proofs.Script.Bat
import EnvLayers.Proofs.Script.Injection
import EnvLayers.Proofs.Shell.Output

/-
Module: EnvLayers.Proofs.Script.Output
Purpose: The files that the scripts of both dialects send output to. A shell script names the
  deactivation file and no other, whatever its path is. A batch file writes the path as it is, so it
  names the deactivation file if its path has no percent sign, and another one if it has; one more
  command sends its output to the null device.
Main exports: Sh.outputs_script, Bat.KeepsLines, Bat.lines_script, Bat.outputs_script,
  Bat.percent_not_mem_of_outputs, Script.outputs_deactivation, Bat.percent_lost
-/

namespace EnvLayers

namespace Sh

open Shell (Bindings Token bare literal)

/-! ### The shell -/

theorem outputsOf?_startTokens (E : Bindings) (file : String) :
    Shell.outputsOf? E (startTokens file) = some [file] := by
  have houtput : Shell.isOutput ">" = true := by decide
  simp [startTokens, Shell.outputsOf?, Shell.firstWord?, houtput, Shell.expand?_literal]

theorem outputsOf?_captureTokens (E : Bindings) (names : List String) (file : String) :
    Shell.outputsOf? E (captureTokens names file).flatten
      = some (List.replicate (if names.isEmpty then 0 else 2) file) := by
  unfold captureTokens
  cases names.isEmpty with
  | true =>
      rfl
  | false =>
      have hfor : Shell.outputsOf? E ([.word (bare "for"), .word (bare "v"), .word (bare "in")]
          ++ (names.map (Token.word <| bare ·) ++ [.newline])) = some [] := by
        apply Shell.outputsOf?_of_forall
        · simp
        · intro w hw
          simp only [List.cons_append, List.nil_append, List.mem_cons, List.mem_append,
            List.mem_map, Token.word.injEq, List.not_mem_nil, reduceCtorEq, or_false] at hw
          rcases hw with rfl | rfl | rfl | ⟨name, -, rfl⟩ <;> simp
      have houtput : Shell.isOutput ">>" = true := by decide
      have hor : Shell.isOutput "||" = false := by decide
      have hfind : (Shell.Piece.command "printenv $v" false).redirects = false := by decide
      simp only [Bool.false_eq_true, if_false]
      rw [List.flatten_cons]
      apply Shell.outputsOf?_append hfor
      simp [Shell.outputsOf?, Shell.firstWord?, houtput, hor, hfind, Shell.expand?_literal,
        List.replicate_succ]

theorem any_redirects_valueWord (pathSeparator : String) (v : Variable) :
    (valueWord pathSeparator v).any Shell.Piece.redirects = false := by
  rw [List.any_eq_false]
  intro p hp
  rcases quoted_valueWord pathSeparator v p hp with ⟨c, rfl⟩ | rfl
  · simp [Shell.Piece.redirects]
  · simp [Shell.Piece.redirects]

theorem outputsOf?_lineTokens (E : Bindings) (pathSeparator : String) (vars : Variables) :
    Shell.outputsOf? E (vars.map (lineTokens pathSeparator)).flatten = some [] := by
  induction vars with
  | nil =>
      rfl
  | cons v rest ih =>
      have hline : Shell.outputsOf? E (lineTokens pathSeparator v) = some [] := by
        unfold lineTokens
        split
        · simp [Shell.unsetLine, Shell.outputsOf?]
        · simp [Shell.exportLine, Shell.outputsOf?, any_redirects_valueWord]
      exact Shell.outputsOf?_append hline ih

/-- The output that a shell script redirects goes to the deactivation file, whatever its path is:
once to start it, and twice in the loop over the variables if there are any. -/
theorem outputs_script {env : Environment} (file : String)
    (hnames : ∀ name ∈ env.names, Graph.isVariableName name)
    (hconsumer : '\n' ∉ env.consumer.toList)
    (hseparators : ∀ v ∈ env.vars, ∀ joiner, v.separator = .text joiner →
      ∀ c ∈ joiner.toList, Shell.isSpecial c = false) (E : Bindings) :
    Shell.outputs? E (script env file)
      = some (List.replicate (if env.names.isEmpty then 1 else 3) file) := by
  have hread := reads_script file (reads_comment hconsumer) hnames
    (reads_assignments hnames hseparators)
  have hcommands : Shell.outputsOf? E (commandTokens env.names file)
      = some ([file] ++ List.replicate (if env.names.isEmpty then 0 else 2) file ++ []) :=
    Shell.outputsOf?_append (Shell.outputsOf?_append (outputsOf?_startTokens E file)
      (outputsOf?_captureTokens E env.names file)) rfl
  have hcomment : Shell.outputsOf? E [.newline] = some [] := rfl
  have hall := Shell.outputsOf?_append (Shell.outputsOf?_append hcomment hcommands)
    (outputsOf?_lineTokens E env.pathSeparator env.vars)
  rw [Shell.outputs?, hread.tokens?_eq, Option.bind_eq_bind, Option.bind_some, hall]
  cases env.names.isEmpty <;> rfl

end Sh

namespace Bat

open Batch (Bindings Expands OpensFile)

/-! ### Batch files -/

/-- What a batch file holds as it is keeps to its line, the path to its quotes, and no declared
separator has a percent sign. -/
structure KeepsLines (env : Environment) (file : String) : Prop where
  consumer : '\n' ∉ env.consumer.toList
  values : ∀ v ∈ env.vars, ∀ text, .value text ∈ v.items → '\n' ∉ text.toList
  separators : ∀ v ∈ env.vars, ∀ joiner, v.separator = .text joiner →
    '\n' ∉ joiner.toList ∧ '%' ∉ joiner.toList
  file : '\n' ∉ file.toList ∧ '"' ∉ file.toList

/-- A character that is neither in names nor a blank is not in names with blanks between them. -/
theorem not_mem_joinedNames {names : List String}
    (hnames : ∀ name ∈ names, Graph.isVariableName name) {c : Char}
    (hc : Graph.isNameRest c = false) (hblank : c ≠ ' ') :
    c ∉ [' '].intercalate (names.map String.toList) := by
  have hjoiner : ∀ d ∈ [' '], d ≠ c := by
    simpa using Ne.symm hblank
  have hparts : ∀ part ∈ names.map String.toList, ∀ d ∈ part, d ≠ c := by
    rintro part hpart d hd rfl
    obtain ⟨name, hname, rfl⟩ := List.mem_map.mp hpart
    exact Shell.not_mem_name (hnames name hname) hc hd
  intro hmem
  exact forall_mem_intercalate hjoiner hparts c hmem rfl

section Lines

variable {env : Environment} {file target : String}

theorem newline_not_mem_captureLines {names : List String}
    (hnames : ∀ name ∈ names, Graph.isVariableName name) (hfile : '\n' ∉ file.toList) :
    ∀ line ∈ captureLines names file, '\n' ∉ line.toList := by
  have hjoined := not_mem_joinedNames hnames (c := '\n') rfl (by decide)
  unfold captureLines
  split
  · simp
  · simp [hfile, hjoined]

theorem newline_not_mem_headerLines (hconsumer : '\n' ∉ env.consumer.toList)
    (hfile : '\n' ∉ file.toList) : ∀ line ∈ headerLines env file, '\n' ∉ line.toList := by
  have hscope : '\n' ∉ env.scope.name.toList := by
    cases env.scope <;> decide
  unfold headerLines
  simp [hfile, hconsumer, hscope]

theorem newline_not_mem_assignmentLines (hnames : ∀ name ∈ env.names, Graph.isVariableName name)
    (h : KeepsLines env file) : ∀ line ∈ assignmentLines env, '\n' ∉ line.toList := by
  intro line hline
  obtain ⟨v, hv, rfl⟩ := List.mem_map.mp hline
  have hname := hnames v.name (List.mem_map.mpr ⟨v, hv, rfl⟩)
  apply newline_not_mem_assignmentLine hname (h.values v hv)
  exact not_mem_joiner (fun w hw joiner hjoiner => (h.separators w hw joiner hjoiner).1)
    (by decide) hv

/-- The lines of a batch file are those that it was written from. -/
theorem lines_script (hnames : ∀ name ∈ env.names, Graph.isVariableName name)
    (h : KeepsLines env file) :
    Batch.lines (script env file)
      = headerLines env file ++ captureLines env.names file ++ ["endlocal", ""]
        ++ assignmentLines env := by
  apply Batch.lines_render
  have hend : ∀ line ∈ ["endlocal", ""], '\n' ∉ line.toList := by
    decide
  simp only [List.forall_mem_append]
  exact ⟨⟨⟨newline_not_mem_headerLines h.consumer h.file.1,
    newline_not_mem_captureLines hnames h.file.1⟩, hend⟩,
    newline_not_mem_assignmentLines hnames h⟩

/-! ### Lines of the template -/

/-- A line of the template, in which percent signs are doubled, is read with single ones. -/
theorem lineOutputs?_template (E : Bindings) {line : String} (text : String)
    (hline : line = escape text) (hremark : Batch.isRemark line.toList = false) :
    Batch.lineOutputs? E line = Batch.outputsFrom .bare text.toList := by
  apply Batch.lineOutputs?_of_expands hremark
  rw [hline]
  exact expands_escape E text

theorem opensFile_template (E : Bindings) {before : String} (text : String)
    (hbefore : before = escape text)
    (hremark : ∀ rest, Batch.isRemark (before.toList ++ rest) = false)
    (hopens : ∀ rest, Batch.outputsFrom .bare (text.toList ++ rest)
      = Batch.outputsFrom (.file []) rest) : OpensFile E before where
  noRemark := hremark
  opens := by
    refine ⟨text, ?_, hopens⟩
    rw [hbefore]
    exact expands_escape E text

theorem opens_start (E : Bindings) : OpensFile E "echo @echo off > \"" :=
  opensFile_template E "echo @echo off > \"" (by decide) (fun _ => rfl) fun _ => rfl

theorem opens_restoring (E : Bindings) : OpensFile E "echo echo Restoring environment >> \"" :=
  opensFile_template E "echo echo Restoring environment >> \"" (by decide) (fun _ => rfl)
    fun _ => rfl

theorem opens_keep (E : Bindings) : OpensFile E "            echo set \"%%a=%%b\">> \"" :=
  opensFile_template E "            echo set \"%a=%b\">> \"" (by decide) (fun _ => rfl)
    fun _ => rfl

theorem opens_drop (E : Bindings) : OpensFile E "        echo set %%v=>> \"" :=
  opensFile_template E "        echo set %v=>> \"" (by decide) (fun _ => rfl) fun _ => rfl

/-- The lines before the first one that names the deactivation file. -/
theorem outputsOf?_headerLines (E : Bindings) (env : Environment) (file : String)
    (rest : List String) :
    Batch.outputsOf? E (headerLines env file ++ rest)
      = (Batch.outputsOf? E (("echo @echo off > \"" ++ file ++ "\"")
          :: ("echo echo Restoring environment >> \"" ++ file ++ "\"")
          :: rest)).map ("nul" :: ·) := by
  have hecho : Batch.lineOutputs? E "@echo off" = some [] :=
    lineOutputs?_template E "@echo off" (by decide) rfl
  have hremark : Batch.lineOutputs? E ("rem " ++ env.scope.name ++ " environment for "
      ++ env.consumer) = some [] := by
    simp [Batch.lineOutputs?, Batch.isRemark]
  have hpage : Batch.lineOutputs? E "chcp 65001 > nul" = some ["nul"] :=
    lineOutputs?_template E "chcp 65001 > nul" (by decide) rfl
  have hlocal : Batch.lineOutputs? E "setlocal" = some [] :=
    lineOutputs?_template E "setlocal" (by decide) rfl
  simp only [headerLines, List.cons_append, List.nil_append]
  rw [Batch.outputsOf?_cons hecho, Batch.outputsOf?_cons hremark, Batch.outputsOf?_cons hpage,
    Batch.outputsOf?_cons hlocal]
  simp [Function.comp_def]

theorem lineOutputs?_forLine (E : Bindings) {names : List String}
    (hnames : ∀ name ∈ names, Graph.isVariableName name) :
    Batch.lineOutputs? E ("for %%v in (" ++ " ".intercalate names ++ ") do (") = some [] := by
  have hplain : ∀ {c : Char}, Graph.isNameRest c = false → c ≠ ' ' →
      c ∉ [' '].intercalate (names.map String.toList) := not_mem_joinedNames hnames
  have hescape : "for %%v in (" = escape "for %v in (" := by decide
  have hstart : Expands E "for %%v in (".toList "for %v in (".toList := by
    rw [hescape]
    exact expands_escape E _
  have hrest : Expands E (" ".intercalate names ++ ") do (").toList
      (" ".intercalate names ++ ") do (").toList := by
    apply Expands.chars
    simp [hplain (c := '%') rfl]
  have hexpands : Expands E ("for %%v in (" ++ " ".intercalate names ++ ") do (").toList
      ("for %v in (" ++ (" ".intercalate names ++ ") do (")).toList := by
    rw [String.append_assoc, String.toList_append, @String.toList_append "for %v in ("]
    exact hstart.append hrest
  have hremark : Batch.isRemark
      ("for %%v in (" ++ " ".intercalate names ++ ") do (").toList = false := by
    rw [String.append_assoc, String.toList_append]
    rfl
  rw [Batch.lineOutputs?_of_expands hremark hexpands]
  apply (Batch.outputsFrom_silent _ _).1
  · simp [hplain (c := '>') rfl]
  · simp [hplain (c := '^') rfl]

/-- The loop names the deactivation file twice. -/
theorem outputsOf?_captureLines {E : Bindings} {names : List String}
    (hnames : ∀ name ∈ names, Graph.isVariableName name)
    (htarget : Batch.NamesFile E file target) :
    Batch.outputsOf? E (captureLines names file)
      = some (List.replicate (if names.isEmpty then 0 else 2) target) := by
  unfold captureLines
  cases names.isEmpty with
  | true =>
      rfl
  | false =>
      have hkeep := (opens_keep E).lineOutputs?_eq htarget
      have hdrop := (opens_drop E).lineOutputs?_eq htarget
      refine @Batch.outputsOf?_of_forall₂ E _
        [[], [], [], [], [target], [], [], [], [], [target], [], []]
        (.cons (lineOutputs?_forLine E hnames) (.cons ?_ (.cons ?_ (.cons ?_ (.cons hkeep
          (.cons ?_ (.cons ?_ (.cons ?_ (.cons ?_ (.cons hdrop (.cons ?_ (.cons ?_ .nil))))))))))))
      · exact lineOutputs?_template E "    set foundenvvar=" (by decide) rfl
      · exact lineOutputs?_template E "    for /f \"delims== tokens=1,2\" %a in ('set') do ("
          (by decide) rfl
      · exact lineOutputs?_template E "        if /I \"%a\" == \"%v\" (" (by decide) rfl
      · exact lineOutputs?_template E "            set foundenvvar=1" (by decide) rfl
      · exact lineOutputs?_template E "        )" (by decide) rfl
      · exact lineOutputs?_template E "    )" (by decide) rfl
      · exact lineOutputs?_template E "    if not defined foundenvvar (" (by decide) rfl
      · exact lineOutputs?_template E "    )" (by decide) rfl
      · exact lineOutputs?_template E ")" (by decide) rfl

/-! ### Lines that change the variables -/

/-- A command redirects nothing where its text does not between quotes. -/
theorem outputsFrom_assignment {name : String} (hname : Graph.isVariableName name)
    {text? : Option String} (h : ∀ text ∈ text?, Batch.IsContained text.toList) :
    Batch.outputsFrom .bare (assignment name text?).toList = some [] := by
  have hquote := Shell.not_mem_name hname rfl (c := '"')
  have hsign := Shell.not_mem_name hname rfl (c := '>')
  have hcaret := Shell.not_mem_name hname rfl (c := '^')
  cases text? with
  | none =>
      apply (Batch.outputsFrom_silent _ _).1
      · simp [assignment, hsign]
      · simp [assignment, hcaret]
  | some text =>
      have hparts : (assignment name (some text)).toList
          = "set \"".toList ++ ((name ++ "=" ++ text).toList ++ ['"']) := by
        simp [assignment]
      have hopen : ∀ rest, Batch.outputsFrom .bare ("set \"".toList ++ rest)
          = Batch.outputsFrom .quoted rest := fun _ => rfl
      have hcontained : Batch.IsContained (name ++ "=" ++ text).toList := by
        have htext := h text rfl
        simpa [Batch.IsContained, hquote, hsign, hcaret] using htext
      rw [hparts, hopen, hcontained.outputsFrom_quoted]

theorem lineOutputs?_assignmentLine {E : Bindings}
    (hnames : ∀ name ∈ env.names, Graph.isVariableName name) (h : KeepsLines env file)
    (houter : ∀ name ∈ env.names, ∀ text, env.getOver? name ((E name).getD "") = some text →
      Batch.IsContained text.toList) :
    ∀ line ∈ assignmentLines env, Batch.lineOutputs? E line = some [] := by
  intro line hline
  obtain ⟨v, hv, rfl⟩ := List.mem_map.mp hline
  have hmem : v.name ∈ env.names := List.mem_map.mpr ⟨v, hv, rfl⟩
  have hname := hnames v.name hmem
  have hpercent := not_mem_joiner (c := '%')
    (fun w hw joiner hjoiner => (h.separators w hw joiner hjoiner).2) (by decide) hv
  have hremark : Batch.isRemark (assignmentLine env.pathSeparator v).toList = false := by
    unfold assignmentLine
    split
    · simp only [String.append_assoc, String.toList_append]
      rfl
    · simp only [String.append_assoc, String.toList_append]
      rfl
  have hfind : env.find? v.name = some v := Variables.find_of_mem env.names_nodup hv
  rw [Batch.lineOutputs?_of_expand? hremark (expand_assignmentLine E hname hpercent)]
  apply outputsFrom_assignment hname
  intro text htext
  apply houter v.name hmem text
  rw [Environment.getOver?, hfind, Option.bind_some]
  exact htext

/-! ### The whole batch file -/

/-- The output that is redirected goes to the null device once and otherwise to the file that the
path of the deactivation file stands for. -/
theorem outputs_script {E : Bindings} (hnames : ∀ name ∈ env.names, Graph.isVariableName name)
    (h : KeepsLines env file) (htarget : Batch.NamesFile E file target)
    (houter : ∀ name ∈ env.names, ∀ text, env.getOver? name ((E name).getD "") = some text →
      Batch.IsContained text.toList) :
    Batch.outputs? E (script env file)
      = some ("nul" :: List.replicate (if env.names.isEmpty then 2 else 4) target) := by
  have hstart := (opens_start E).lineOutputs?_eq htarget
  have hrestoring := (opens_restoring E).lineOutputs?_eq htarget
  have hcapture := outputsOf?_captureLines hnames htarget
  have hlocal : Batch.outputsOf? E ["endlocal", ""] = some [] := by
    apply Batch.outputsOf?_of_forall
    simp only [List.forall_mem_cons]
    exact ⟨lineOutputs?_template E "endlocal" (by decide) rfl,
      lineOutputs?_template E "" (by decide) rfl, nofun⟩
  have hassignments := Batch.outputsOf?_of_forall (lineOutputs?_assignmentLine hnames h houter)
  rw [Batch.outputs?, lines_script hnames h, List.append_assoc, List.append_assoc,
    outputsOf?_headerLines, Batch.outputsOf?_cons hstart, Batch.outputsOf?_cons hrestoring,
    Batch.outputsOf?_append hcapture, Batch.outputsOf?_append hlocal, hassignments]
  cases env.names.isEmpty <;> rfl

/-- Where no variable is set, a path with a percent sign is not that of the first file. -/
theorem percent_not_mem_of_outputs (hnames : ∀ name ∈ env.names, Graph.isVariableName name)
    (h : KeepsLines env file) {n : Nat}
    (houtputs : Batch.outputs? Batch.unset (script env file)
      = some ("nul" :: List.replicate n file)) : '%' ∉ file.toList := by
  intro hpercent
  rw [Batch.outputs?, lines_script hnames h, List.append_assoc, List.append_assoc,
    outputsOf?_headerLines, Option.map_eq_some_iff] at houtputs
  obtain ⟨files, hfiles, heq⟩ := houtputs
  obtain ⟨first, rest, hline, -, rfl⟩ := Batch.exists_of_outputsOf?_cons hfiles
  obtain ⟨name, more, rfl, hne⟩ :=
    (opens_start Batch.unset).exists_ne_of_percent hpercent hline
  apply hne
  apply List.eq_of_mem_replicate (n := n)
  injection heq with _ heq
  rw [← heq]
  exact List.mem_cons_self

end Lines

end Bat

/-! ### Both dialects -/

/-- The scripts of both dialects send output to the deactivation file, and all of it to the same
one. For a shell script that holds for any path. In a batch file, in any environment outside over
which no value redirects output itself, one command sends its output to the null device and the
others to the file that the path stands for: that is the path itself if it has no percent sign, and
another one, where no variable is set, if it has one. -/
theorem Script.outputs_deactivation (env : Environment) (file : String)
    (hnames : ∀ name ∈ env.names, Graph.isVariableName name) :
    ('\n' ∉ env.consumer.toList →
      (∀ v ∈ env.vars, ∀ joiner, v.separator = .text joiner →
        ∀ c ∈ joiner.toList, Shell.isSpecial c = false) →
      ∀ E, Shell.outputs? E (Sh.script env file)
        = some (List.replicate (if env.names.isEmpty then 1 else 3) file))
      ∧ (Bat.KeepsLines env file →
        (∀ E : Batch.Bindings,
            (∀ name ∈ env.names, ∀ text, env.getOver? name ((E name).getD "") = some text →
              Batch.IsContained text.toList) →
            (∀ target, Batch.NamesFile E file target →
              Batch.outputs? E (Bat.script env file)
                = some ("nul" :: List.replicate (if env.names.isEmpty then 2 else 4) target))
            ∧ ('%' ∉ file.toList →
              Batch.outputs? E (Bat.script env file)
                = some ("nul" :: List.replicate (if env.names.isEmpty then 2 else 4) file)))
        ∧ ('%' ∈ file.toList →
          ∀ n, Batch.outputs? Batch.unset (Bat.script env file)
            ≠ some ("nul" :: List.replicate n file))) := by
  constructor
  · intro hconsumer hseparators E
    exact Sh.outputs_script file hnames hconsumer hseparators E
  · intro hkeeps
    constructor
    · intro E hcontained
      have houtputs : ∀ target, Batch.NamesFile E file target → _ := fun target htarget =>
        Bat.outputs_script hnames hkeeps htarget hcontained
      exact ⟨houtputs, fun hpercent =>
        houtputs file (Batch.namesFile_self hkeeps.file.2 hpercent)⟩
    · intro hpercent n houtputs
      exact Bat.percent_not_mem_of_outputs hnames hkeeps houtputs hpercent

theorem Script.outputs_deactivation_percents :
    (∀ E, Shell.outputs? E (Sh.script Bat.percents "/out \"$x\"/d.sh")
        = some (List.replicate 3 "/out \"$x\"/d.sh"))
      ∧ Batch.outputs? (fun _ => some ">%") (Bat.script Bat.percents "C:\\out dir\\d.bat")
        = some ("nul" :: List.replicate 4 "C:\\out dir\\d.bat")
      ∧ ∀ n, Batch.outputs? Batch.unset (Bat.script Bat.percents "C:\\100%\\d.bat")
        ≠ some ("nul" :: List.replicate n "C:\\100%\\d.bat") := by
  have hnames : ∀ name ∈ Bat.percents.names, Graph.isVariableName name := List.all_eq_true.mp rfl
  have hplain : ∀ v ∈ Bat.percents.vars, ∀ joiner, v.separator = .text joiner →
      ∀ c ∈ joiner.toList, Shell.isSpecial c = false := by
    intro v hv joiner hjoiner
    simp only [Bat.percents, List.mem_cons, List.not_mem_nil, or_false] at hv
    rcases hv with rfl | rfl | rfl <;> cases hjoiner <;> simp [Shell.isSpecial]
  have hkeeps : ∀ file : String, '\n' ∉ file.toList ∧ '"' ∉ file.toList →
      Bat.KeepsLines Bat.percents file := fun file hfile =>
    ⟨by decide, Bat.newline_not_mem_percents, Bat.separators_percents, hfile⟩
  have hcontained : ∀ name ∈ Bat.percents.names, ∀ text,
      Bat.percents.getOver? name ">%" = some text → Batch.IsContained text.toList := by
    intro name hname text htext
    have hone : name = "RATE" ∨ name = "PATH" ∨ name = "STALE" := by
      simpa [Bat.percents, Environment.names, Variables.names] using hname
    left
    rcases hone with rfl | rfl | rfl
    · have hvalue : Bat.percents.getOver? "RATE" ">%" = some "100%>%%PATH%" := by decide
      cases hvalue.symm.trans htext
      decide
    · have hvalue : Bat.percents.getOver? "PATH" ">%" = some "C:\\bin;>%" := by decide
      cases hvalue.symm.trans htext
      decide
    · have hvalue : Bat.percents.getOver? "STALE" ">%" = none := by decide
      cases hvalue.symm.trans htext
  obtain ⟨hsh, -⟩ := Script.outputs_deactivation Bat.percents "/out \"$x\"/d.sh" hnames
  obtain ⟨-, hbat⟩ := Script.outputs_deactivation Bat.percents "C:\\out dir\\d.bat" hnames
  obtain ⟨-, hlost⟩ := Script.outputs_deactivation Bat.percents "C:\\100%\\d.bat" hnames
  exact ⟨hsh (by decide) hplain,
    ((hbat (hkeeps _ (by decide))).1 (fun _ => some ">%") hcontained).2 (by decide),
    (hlost (hkeeps _ (by decide))).2 (by decide)⟩

/-- Where the path of the deactivation file has a percent sign, another file is written. -/
theorem Bat.percent_lost :
    ∃ env, (Sh.flagged [.append "FLAGS" "-O2"]).resolve "app" .run [] = .ok env
      ∧ (∀ name ∈ env.names, Graph.isVariableName name)
      ∧ Batch.outputs? Batch.unset (Bat.script env "C:\\100%\\deactivate.bat")
        = some ("nul" :: List.replicate 4 "C:\\100\\deactivate.bat") := by
  have hresolved : (Sh.flagged [.append "FLAGS" "-O2"]).resolve "app" .run []
      = .ok (Graph.ofOps "app" .run none [.append "FLAGS" "-O2"]) := by
    cbv
  generalize henv : Graph.ofOps "app" .run none [.append "FLAGS" "-O2"] = env at hresolved
  have hvars : env.vars = [⟨"FLAGS", [.previous, .value "-O2"], .text " "⟩] := by
    rw [← henv]
    rfl
  have hnames : ∀ name ∈ env.names, Graph.isVariableName name := by
    rw [← henv]
    exact List.all_eq_true.mp rfl
  have hkeeps : KeepsLines env "C:\\100%\\deactivate.bat" := by
    refine ⟨?_, ?_, ?_, by decide⟩
    · rw [← henv]
      decide
    · simp [hvars]
    · simp [hvars]
  have htarget : Batch.NamesFile Batch.unset "C:\\100%\\deactivate.bat"
      "C:\\100\\deactivate.bat" := ⟨by decide, by decide⟩
  have hcontained : ∀ name ∈ env.names, ∀ text,
      env.getOver? name ((Batch.unset name).getD "") = some text →
        Batch.IsContained text.toList := by
    rw [← henv]
    intro name hname text htext
    obtain rfl : name = "FLAGS" := List.mem_singleton.mp hname
    have hvalue : (Graph.ofOps "app" .run none [.append "FLAGS" "-O2"]).getOver? "FLAGS"
        ((Batch.unset "FLAGS").getD "") = some " -O2" := by
      decide
    cases hvalue.symm.trans htext
    exact .inl (by decide)
  have houtputs := Bat.outputs_script hnames hkeeps htarget hcontained
  refine ⟨env, hresolved, hnames, ?_⟩
  rw [houtputs, ← henv]
  rfl

end EnvLayers
