import EnvLayers.Proofs.Environment.Resolve
import EnvLayers.Proofs.Script.Sh
import EnvLayers.Proofs.Shell.Lines

/-
Module: EnvLayers.Proofs.Script.Injection
Purpose: Which texts can add to the commands of a shell script. What a shell reads are the commands
  of the template and one assignment for each variable, whatever the values and the path of the
  deactivation file hold; a declared separator and the name of the consumer are written as they are.
Main exports: Sh.templateTokens, Sh.Assigns, Sh.ReadsAsTemplate, Sh.reads_script,
  Sh.reads_second_line, Sh.reads_as_template
-/

namespace EnvLayers.Sh

open Shell (Word Token Reads bare literal)

/-! ### The template -/

/-- The command that starts the deactivation file. -/
def startTokens (file : String) : List Token :=
  [.word (bare "echo"), .word (literal "echo Restoring environment"), .operator ">",
    .word (literal file), .newline]

/-- The loop that writes to the deactivation file how each variable is restored. -/
def captureTokens (names : List String) (file : String) : List (List Token) :=
  if names.isEmpty then []
  else
    [[.word (bare "for"), .word (bare "v"), .word (bare "in")]
      ++ (names.map (Token.word <| bare ·) ++ [.newline]),
     [.word (bare "do"), .newline],
     [.word (bare "is_defined=" ++ literal "true"), .newline],
     [.word (bare "value=" ++ [.command "printenv $v" false]), .operator "||",
      .word (bare "is_defined="), .operator "||", .word (bare "true"), .newline],
     [.word (bare "if"), .word (bare "["), .word (bare "-n"), .word [.param "value" true],
      .word (bare "]"), .operator "||", .word (bare "["), .word (bare "-n"),
      .word [.param "is_defined" true], .word (bare "]"), .newline],
     [.word (bare "then"), .newline],
     [.word (bare "echo"), .word (bare "export"),
      .word ([.param "v" true] ++ literal "='" ++ [.param "value" true] ++ literal "'"),
      .operator ">>", .word (literal file), .newline],
     [.word (bare "else"), .newline],
     [.word (bare "echo"), .word (bare "unset"), .word [.param "v" false], .operator ">>",
      .word (literal file), .newline],
     [.word (bare "fi"), .newline],
     [.word (bare "done"), .newline]]

/-- The commands before those that change the variables. -/
def commandTokens (names : List String) (file : String) : List Token :=
  startTokens file ++ (captureTokens names file).flatten ++ [.newline]

/-- What a script holds for any environment with variables of these names: a comment, of which only
the end of its line is read, and the commands. -/
def templateTokens (names : List String) (file : String) : List Token :=
  .newline :: commandTokens names file

/-- A command that changes one variable: it is exported with one quoted word, which holds characters
and references to the variable itself, or removed. -/
inductive Assigns (name : String) : List Token → Prop where
  | exported {value : Word} (pieces : ∀ p ∈ value, (∃ c, p = .char c true) ∨ p = .param name true) :
      Assigns name (Shell.exportLine name value)
  | removed : Assigns name (Shell.unsetLine name)

/-- A shell reads the script as the template and one assignment for each variable, in order. -/
def ReadsAsTemplate (env : Environment) (file : String) : Prop :=
  ∃ lines : List (List Token), List.Forall₂ Assigns env.names lines
    ∧ Shell.tokens? (script env file) = some (templateTokens env.names file ++ lines.flatten)

/-! ### Reading the template -/

theorem reads_comment {env : Environment} (h : '\n' ∉ env.consumer.toList) :
    Reads ("# " ++ env.scope.name ++ " environment for " ++ env.consumer ++ "\n") [.newline] := by
  have hscope : '\n' ∉ env.scope.name.toList := by
    cases env.scope <;> decide
  have hline : "# " ++ env.scope.name ++ " environment for " ++ env.consumer
      = "#" ++ (" " ++ env.scope.name ++ " environment for " ++ env.consumer) := by
    apply String.toList_injective
    simp
  rw [hline]
  refine Reads.comment ?_
  simp [hscope, h]

theorem reads_start (file : String) :
    Reads ("echo \"echo Restoring environment\" > \"" ++ escape file ++ "\"" ++ "\n")
      (startTokens file) := by
  have hbefore : Shell.read ⟨.between, [], []⟩ "echo \"echo Restoring environment\" > \"".toList
      = some ⟨.double, [], [.word (bare "echo"), .word (literal "echo Restoring environment"),
          .operator ">"]⟩ := rfl
  exact Reads.quoted hbefore (quotes_escape file)

theorem reads_capture {names : List String} (hnames : ∀ name ∈ names, Graph.isVariableName name)
    (file : String) :
    List.Forall₂ (fun line ts => Reads (line ++ "\n") ts) (captureLines names (escape file))
      (captureTokens names file) := by
  unfold captureLines captureTokens
  cases hempty : names.isEmpty with
  | true =>
      exact .nil
  | false =>
      have hne : names ≠ [] := by
        rintro rfl
        cases hempty
      have hfor : Reads "for v in " [.word (bare "for"), .word (bare "v"), .word (bare "in")] := rfl
      have hexport : Shell.read ⟨.between, [], []⟩
          "        echo export \"$v='$value'\" >> \"".toList
            = some ⟨.double, [], [.word (bare "echo"), .word (bare "export"),
                .word ([.param "v" true] ++ literal "='" ++ [.param "value" true] ++ literal "'"),
                .operator ">>"]⟩ := rfl
      have hunset : Shell.read ⟨.between, [], []⟩ "        echo unset $v >> \"".toList
            = some ⟨.double, [], [.word (bare "echo"), .word (bare "unset"),
                .word [.param "v" false], .operator ">>"]⟩ := rfl
      refine .cons ?_ (.cons rfl (.cons rfl (.cons rfl (.cons rfl (.cons rfl (.cons ?_
        (.cons rfl (.cons ?_ (.cons rfl (.cons rfl .nil))))))))))
      · rw [String.append_assoc]
        exact hfor.append (Reads.names hne hnames)
      · exact Reads.quoted hexport (quotes_escape file)
      · exact Reads.quoted hunset (quotes_escape file)

/-! ### The lines that change the variables -/

theorem quoted_valueWord (pathSeparator : String) (v : Variable) :
    ∀ p ∈ valueWord pathSeparator v, (∃ c, p = .char c true) ∨ p = .param v.name true := by
  have hliteral : ∀ s, ∀ p ∈ literal s, (∃ c, p = .char c true) ∨ p = .param v.name true := by
    intro s p hp
    rcases List.mem_map.mp hp with ⟨c, -, rfl⟩
    exact .inl ⟨c, rfl⟩
  refine forall_mem_intercalate (hliteral _) fun part hpart => ?_
  obtain ⟨item, -, hitem⟩ := List.mem_filterMap.mp hpart
  cases item with
  | previous =>
      cases hitem
      intro p hp
      exact .inr (List.mem_singleton.mp hp)
  | value text =>
      by_cases hempty : text = ""
      · simp [entryWord, hempty] at hitem
      · simp only [entryWord, if_neg hempty, Option.some.injEq] at hitem
        subst hitem
        exact hliteral text

theorem assigns_lineTokens (pathSeparator : String) (v : Variable) :
    Assigns v.name (lineTokens pathSeparator v) := by
  unfold lineTokens
  split
  · exact .removed
  · exact .exported (quoted_valueWord pathSeparator v)

theorem reads_assignments {env : Environment}
    (hnames : ∀ name ∈ env.names, Graph.isVariableName name)
    (hseparators : ∀ v ∈ env.vars, ∀ joiner, v.separator = .text joiner →
      ∀ c ∈ joiner.toList, Shell.isSpecial c = false) :
    Reads (Text.Lines.render "\n" (assignmentLines env))
      (env.vars.map (lineTokens env.pathSeparator)).flatten := by
  refine Reads.render ?_
  rw [assignmentLines, List.forall₂_map_left_iff, List.forall₂_map_right_iff, List.forall₂_same]
  intro v hv
  have hname := hnames v.name (List.mem_map.mpr ⟨v, hv, rfl⟩)
  exact read_assignmentLine hname (joiner_plain hseparators hv) []

/-! ### The whole script -/

/-- The tokens of a script are those of its first line, of the commands of the template and of the
lines that change the variables. -/
theorem reads_script {env : Environment} {comment assignments : List Token} (file : String)
    (hcomment : Reads
      ("# " ++ env.scope.name ++ " environment for " ++ env.consumer ++ "\n") comment)
    (hnames : ∀ name ∈ env.names, Graph.isVariableName name)
    (hassignments : Reads (Text.Lines.render "\n" (assignmentLines env)) assignments) :
    Reads (script env file) (comment ++ commandTokens env.names file ++ assignments) := by
  have hheader : List.Forall₂ (fun line ts => Reads (line ++ "\n") ts)
      (headerLines env (escape file)) [comment, startTokens file] :=
    .cons hcomment (.cons (reads_start file) .nil)
  have hblank : List.Forall₂ (fun line ts => Reads (line ++ "\n") ts) [""] [[.newline]] :=
    .cons rfl .nil
  have hlines := Reads.render (List.rel_append (List.rel_append hheader
    (reads_capture hnames file)) hblank)
  simpa [commandTokens, script, Text.Lines.render, String.append_assoc]
    using hlines.append hassignments

/-- A second line in the name of the consumer is not part of the comment: its commands are read
before those of the template. -/
theorem reads_second_line {env : Environment} {id line : String}
    {commands assignments : List Token} (file : String)
    (hconsumer : env.consumer = id ++ "\n" ++ line) (hid : '\n' ∉ id.toList)
    (hline : Reads (line ++ "\n") commands)
    (hnames : ∀ name ∈ env.names, Graph.isVariableName name)
    (hassignments : Reads (Text.Lines.render "\n" (assignmentLines env)) assignments) :
    Reads (script env file)
      (.newline :: commands ++ commandTokens env.names file ++ assignments) := by
  have hfirst := @reads_comment { env with consumer := id } hid
  refine reads_script file ?_ hnames hassignments
  rw [hconsumer]
  simpa [String.append_assoc] using hfirst.append hline

/-- A shell reads the script of an environment as its template and one assignment for each variable,
whatever the values of the variables and the path of the deactivation file are. The name of the
consumer must not end its line, and the declared separators must have no character that keeps a
meaning between double quotes: both are written into the script as they are. -/
theorem reads_as_template (env : Environment) (file : String)
    (hnames : ∀ name ∈ env.names, Graph.isVariableName name)
    (hconsumer : '\n' ∉ env.consumer.toList)
    (hseparators : ∀ v ∈ env.vars, ∀ joiner, v.separator = .text joiner →
      ∀ c ∈ joiner.toList, Shell.isSpecial c = false) :
    ReadsAsTemplate env file := by
  have hscript := reads_script file (reads_comment hconsumer) hnames
    (reads_assignments hnames hseparators)
  refine ⟨env.vars.map (lineTokens env.pathSeparator), ?_, hscript.tokens?_eq⟩
  rw [Environment.names, Variables.names, List.forall₂_map_left_iff, List.forall₂_map_right_iff,
    List.forall₂_same]
  intro v _
  exact assigns_lineTokens env.pathSeparator v

/-- A program whose library declares a runtime environment. -/
def flagged (ops : List Op) : Graph where
  nodes := [
    { Node.ofName "app" with requirements := [⟨"lib", .requires, true⟩] },
    { Node.ofName "lib" with runEnv := ops }]
  ids_nodup := (by decide : ["app", "lib"].Nodup)

theorem reads_as_template_hostile_value :
    ∃ env, (flagged [.append "FLAGS" "\"; touch /tmp/pwned; $(id)\n"]).resolve "app" .run []
        = .ok env
      ∧ ReadsAsTemplate env "/out/\"$x" := by
  have hresolved : (flagged [.append "FLAGS" "\"; touch /tmp/pwned; $(id)\n"]).resolve "app" .run []
      = .ok (Graph.ofOps "app" .run none [.append "FLAGS" "\"; touch /tmp/pwned; $(id)\n"]) := by
    cbv
  refine ⟨_, hresolved, reads_as_template _ _ (List.all_eq_true.mp rfl) (by decide) ?_⟩
  intro v hv joiner hjoiner
  rcases List.mem_singleton.mp hv with rfl
  cases hjoiner
  simp [Shell.isSpecial]

theorem Assigns.length_eq {name : String} {line : List Token} (h : Assigns name line) :
    line.length = 3 := by
  cases h <;> rfl

/-- Flags that are joined by a text with a command between two double quotes. -/
def brokenFlags : Op := (Op.append "FLAGS" "-O2").withSeparator "\"; touch /tmp/pwned; \""

theorem reads_brokenFlags :
    Reads (Text.Lines.render "\n" (assignmentLines (Graph.ofOps "app" .run none [brokenFlags])))
      [.word (bare "export"), .word (bare "FLAGS=" ++ [.param "FLAGS" true]), .operator ";",
        .word (bare "touch"), .word (bare "/tmp/pwned"), .operator ";", .word (literal "-O2"),
        .newline] := by
  have htext : Text.Lines.render "\n" (assignmentLines (Graph.ofOps "app" .run none [brokenFlags]))
      = "export FLAGS=\"$\x7bFLAGS\x7d\"; touch /tmp/pwned; \"-O2\"\n" := by
    decide
  rw [htext]
  rfl

/-- A declared separator that holds a double quote ends the word that it stands in, and what follows
it is read as a command. -/
theorem separator_ends_word :
    ∃ env, (flagged [brokenFlags]).resolve "app" .run [] = .ok env
      ∧ (∀ name ∈ env.names, Graph.isVariableName name)
      ∧ ¬ ReadsAsTemplate env "/out/deactivate" := by
  have hresolved : (flagged [brokenFlags]).resolve "app" .run []
      = .ok (Graph.ofOps "app" .run none [brokenFlags]) := by
    cbv
  have hnames : ∀ name ∈ (Graph.ofOps "app" .run none [brokenFlags]).names,
      Graph.isVariableName name := List.all_eq_true.mp rfl
  refine ⟨_, hresolved, hnames, ?_⟩
  rintro ⟨lines, hlines, htokens⟩
  -- the one assignment would have three tokens, but the line is read as eight
  have hread := reads_script "/out/deactivate" (reads_comment (by decide)) hnames reads_brokenFlags
  have hsame := Option.some.inj (hread.tokens?_eq.symm.trans htokens)
  have hcount := congrArg List.length (List.append_cancel_left hsame)
  have hone : Variables.names (Graph.ofOps "app" .run none [brokenFlags]).vars = ["FLAGS"] := by rfl
  rw [Environment.names, hone] at hlines
  cases hlines with
  | cons hline hrest =>
      cases hrest
      simp [hline.length_eq] at hcount

end EnvLayers.Sh
