import EnvLayers.Proofs.Environment.Fold
import EnvLayers.Proofs.Shell.Run
import EnvLayers.Proofs.Text.Join
import EnvLayers.Script.Sh

/-
Module: EnvLayers.Proofs.Script.Sh
Purpose: The lines of a shell script that change variables give each of them, in whatever
  environment they run, the text that the variable has over its value there.
Main exports: Sh.valueWord, Sh.quotes_valueText, Sh.expand_valueWord, Sh.tokens_lines, Sh.assigned,
  Sh.run_assignments
-/

namespace EnvLayers.Sh

open Shell (Bindings Word Token Quotes)

/-! ### Values between double quotes -/

theorem isSpecial_eq (c : Char) : isSpecial c = Shell.isSpecial c := by
  unfold isSpecial Shell.isSpecial
  ac_rfl

theorem quotes_escapeChars (cs : List Char) :
    Quotes (cs.flatMap escapeChar) (cs.map (.char · true)) := by
  induction cs with
  | nil =>
      exact Quotes.nil
  | cons c cs ih =>
      rw [List.flatMap_cons, List.map_cons, ← List.singleton_append]
      refine Quotes.append ?_ ih
      unfold escapeChar
      rw [isSpecial_eq]
      split
      · next hspecial =>
          exact Quotes.escaped hspecial
      · next hplain =>
          exact Quotes.char (Bool.eq_false_iff.mpr hplain)

/-- An escaped text stands for itself between double quotes. -/
theorem quotes_escape (s : String) : Quotes (escape s).toList (Shell.literal s) := by
  rw [escape, String.toList_ofList]
  exact quotes_escapeChars s.toList

theorem quotes_reference {name : String} (h : Graph.isVariableName name) :
    Quotes (reference name).toList [.param name true] := by
  have htext : (reference name).toList = '$' :: '\x7b' :: (name.toList ++ ['\x7d']) := by
    simp [reference]
  rw [htext]
  exact Quotes.param h

/-- What one entry is read as. -/
def entryWord (name : String) : Item → Option Word
  | .value text => if text = "" then none else some (Shell.literal text)
  | .previous => some [.param name true]

/-- What the text of a variable is read as. -/
def valueWord (pathSeparator : String) (v : Variable) : Word :=
  (Shell.literal (v.joiner pathSeparator)).intercalate (v.items.filterMap (entryWord v.name))

theorem quotes_valueText {v : Variable} {pathSeparator text : String}
    (hname : Graph.isVariableName v.name)
    (hjoiner : ∀ c ∈ (v.joiner pathSeparator).toList, Shell.isSpecial c = false)
    (h : Script.valueText? escape (reference v.name) pathSeparator v = some text) :
    Quotes text.toList (valueWord pathSeparator v) := by
  unfold Script.valueText? at h
  split at h
  · cases h
  · cases h
    have hentry : ∀ item, Option.Rel Quotes
        ((Script.entryText escape (reference v.name) item).map String.toList)
        (entryWord v.name item) := by
      intro item
      cases item with
      | previous =>
          exact .some (quotes_reference hname)
      | value part =>
          by_cases hempty : part = ""
          · simp only [Script.entryText, entryWord, if_pos hempty]
            exact .none
          · simp only [Script.entryText, entryWord, if_neg hempty]
            exact .some (quotes_escape part)
    rw [String.toList_intercalate, List.map_filterMap]
    exact intercalate_rel Quotes.nil Quotes.append (Quotes.chars hjoiner)
      (forall₂_filterMap hentry v.items)

/-- The value of a variable expands to its text over the value that it has in the environment. -/
theorem expand_valueWord (E : Bindings) (pathSeparator : String) {v : Variable}
    (hset : v.isUnset = false) :
    Shell.expand? E (valueWord pathSeparator v)
      = v.flatten (some ((E v.name).getD "")) pathSeparator := by
  have hentry : ∀ item, Option.Rel (fun w cs => Shell.expand? E w = some (String.ofList cs))
      (entryWord v.name item)
      ((Variable.shown (some ((E v.name).getD "")) item).map String.toList) := by
    intro item
    cases item with
    | previous =>
        refine .some ?_
        rw [Shell.expand?_param, String.ofList_toList]
    | value part =>
        by_cases hempty : part = ""
        · simp only [Variable.shown, entryWord, if_pos hempty]
          exact .none
        · simp only [Variable.shown, entryWord, if_neg hempty]
          refine .some ?_
          rw [Shell.expand?_literal, String.ofList_toList]
  have happend : ∀ {w : Word} {cs w' cs'}, Shell.expand? E w = some (String.ofList cs) →
      Shell.expand? E w' = some (String.ofList cs') →
      Shell.expand? E (w ++ w') = some (String.ofList (cs ++ cs')) := by
    intro w cs w' cs' h h'
    rw [Shell.expand?_append h h', String.ofList_append]
  have hjoiner : Shell.expand? E (Shell.literal (v.joiner pathSeparator))
      = some (String.ofList (v.joiner pathSeparator).toList) := by
    rw [Shell.expand?_literal, String.ofList_toList]
  have hword := intercalate_rel (R := fun w cs => Shell.expand? E w = some (String.ofList cs)) rfl
    happend hjoiner (forall₂_filterMap hentry v.items)
  rw [← List.map_filterMap, ← String.toList_intercalate, String.ofList_toList] at hword
  rw [valueWord, hword, Variable.flatten, hset]
  rfl

/-! ### Lines -/

/-- The tokens of the line that changes a variable. -/
def lineTokens (pathSeparator : String) (v : Variable) : List Token :=
  if v.isUnset then Shell.unsetLine v.name
  else Shell.exportLine v.name (valueWord pathSeparator v)

theorem read_assignmentLine {v : Variable} {pathSeparator : String}
    (hname : Graph.isVariableName v.name)
    (hjoiner : ∀ c ∈ (v.joiner pathSeparator).toList, Shell.isSpecial c = false)
    (ts : List Token) :
    Shell.read ⟨.between, [], ts⟩ (assignmentLine pathSeparator v ++ "\n").toList
      = some ⟨.between, [], ts ++ lineTokens pathSeparator v⟩ := by
  unfold assignmentLine lineTokens
  cases htext : Script.valueText? escape (reference v.name) pathSeparator v with
  | none =>
      have hunset : v.isUnset = true := by
        simpa [Script.valueText?] using htext
      have hcommand : Shell.read ⟨.between, [], ts⟩ "unset ".toList
          = some ⟨.between, [], ts ++ [.word (Shell.bare "unset")]⟩ := rfl
      have hend : ∀ w ts, Shell.read ⟨.word, w, ts⟩ "\n".toList
          = some ⟨.between, [], ts ++ [.word w] ++ [.newline]⟩ := fun _ _ => rfl
      simp only [hunset, if_true, String.toList_append, Shell.read_append, hcommand,
        Option.bind_some, Shell.read_name hname, hend, Shell.unsetLine]
      simp
  | some text =>
      have hset : v.isUnset = false := by
        unfold Script.valueText? at htext
        split at htext
        · cases htext
        · next hset =>
            exact Bool.eq_false_iff.mpr hset
      have hcommand : Shell.read ⟨.between, [], ts⟩ "export ".toList
          = some ⟨.between, [], ts ++ [.word (Shell.bare "export")]⟩ := rfl
      have hopen : ∀ w ts, Shell.read ⟨.word, w, ts⟩ "=\"".toList
          = some ⟨.double, w ++ Shell.bare "=", ts⟩ := fun _ _ => rfl
      have hend : ∀ w ts, Shell.read ⟨.double, w, ts⟩ ("\"".toList ++ "\n".toList)
          = some ⟨.between, [], ts ++ [.word w] ++ [.newline]⟩ := fun _ _ => rfl
      have hvalue := quotes_valueText hname hjoiner htext
      simp only [hset, String.toList_append, List.append_assoc, Shell.read_append, hcommand,
        Option.bind_some, Shell.read_name hname, hopen, hvalue _ _, Shell.exportLine]
      rw [← Shell.read_append, hend]
      simp

/-- What the lines are cut into. -/
theorem tokens_lines {vars : Variables} {pathSeparator : String}
    (hnames : ∀ v ∈ vars, Graph.isVariableName v.name)
    (hjoiners : ∀ v ∈ vars, ∀ c ∈ (v.joiner pathSeparator).toList, Shell.isSpecial c = false) :
    Shell.tokens? (Text.Lines.render "\n" (vars.map (assignmentLine pathSeparator)))
      = some (vars.flatMap (lineTokens pathSeparator)) := by
  have hread : ∀ ts, Shell.read ⟨.between, [], ts⟩
      (Text.Lines.render "\n" (vars.map (assignmentLine pathSeparator))).toList
        = some ⟨.between, [], ts ++ vars.flatMap (lineTokens pathSeparator)⟩ := by
    induction vars with
    | nil =>
        intro ts
        simp [Text.Lines.render, Shell.read]
    | cons v rest ih =>
        intro ts
        have hline := read_assignmentLine (hnames v List.mem_cons_self)
          (hjoiners v List.mem_cons_self) ts
        have hrest := ih (fun w hw => hnames w (List.mem_cons_of_mem _ hw))
          fun w hw => hjoiners w (List.mem_cons_of_mem _ hw)
        have htext : Text.Lines.render "\n" ((v :: rest).map (assignmentLine pathSeparator))
            = assignmentLine pathSeparator v ++ "\n"
              ++ Text.Lines.render "\n" (rest.map (assignmentLine pathSeparator)) := by
          simp [Text.Lines.render]
        rw [htext, String.toList_append, Shell.read_append, hline, Option.bind_some, hrest,
          List.flatMap_cons, List.append_assoc]
  rw [Shell.tokens?, hread []]
  rfl

/-! ### Running the lines -/

/-- Each variable with its text over its value in another environment, and the other values of that
one. -/
def assigned (pathSeparator : String) (vars : Variables) (E : Bindings) : Bindings := fun name =>
  match vars.find name with
  | some v => v.flatten (some ((E name).getD "")) pathSeparator
  | none => E name

/-- A line changes the variable that it names and reads no other. -/
theorem runTokens_lineTokens (E : Bindings) (pathSeparator : String) {v : Variable}
    (hname : Graph.isVariableName v.name) (rest : List Token) :
    Shell.runTokens E [] (lineTokens pathSeparator v ++ rest)
      = Shell.runTokens
          (Function.update E v.name (v.flatten (some ((E v.name).getD "")) pathSeparator)) []
          rest := by
  unfold lineTokens
  cases hunset : v.isUnset with
  | true =>
      have hnone : v.flatten (some ((E v.name).getD "")) pathSeparator = none := by
        simp [Variable.flatten, hunset]
      rw [hnone]
      exact Shell.runTokens_unsetLine E hname rest
  | false =>
      have hword := expand_valueWord E pathSeparator hunset
      obtain ⟨text, htext⟩ : ∃ text, v.flatten (some ((E v.name).getD "")) pathSeparator
          = some text := by
        simp [Variable.flatten, hunset]
      rw [htext] at hword ⊢
      exact Shell.runTokens_exportLine hname hword rest

/-- Since no other variable has the name of the first one, changing that one first changes nothing
for them. -/
theorem assigned_cons (pathSeparator : String) {v : Variable} {rest : Variables}
    (hnew : v.name ∉ rest.names) (E : Bindings) :
    assigned pathSeparator (v :: rest) E
      = assigned pathSeparator rest
          (Function.update E v.name (v.flatten (some ((E v.name).getD "")) pathSeparator)) := by
  funext name
  by_cases hname : v.name = name
  · subst hname
    have hfirst : Variables.find (v :: rest) v.name = some v := by
      simp [Variables.find]
    rw [assigned, assigned, hfirst, Variables.find_eq_none_iff.mpr hnew]
    simp
  · have hother : Variables.find (v :: rest) name = Variables.find rest name := by
      simp [Variables.find, hname]
    rw [assigned, assigned, hother, Function.update_of_ne (Ne.symm hname)]

/-- Running the lines one after another gives all variables their values at once. -/
theorem runTokens_lines {vars : Variables} (pathSeparator : String) (hnodup : vars.names.Nodup)
    (hnames : ∀ v ∈ vars, Graph.isVariableName v.name) (E : Bindings) :
    Shell.runTokens E [] (vars.flatMap (lineTokens pathSeparator))
      = some (assigned pathSeparator vars E) := by
  induction vars generalizing E with
  | nil =>
      rfl
  | cons v rest ih =>
      rcases List.nodup_cons.mp hnodup with ⟨hnew, hrest⟩
      rw [List.flatMap_cons, runTokens_lineTokens E pathSeparator (hnames v List.mem_cons_self),
        ih hrest fun w hw => hnames w (List.mem_cons_of_mem _ hw), assigned_cons _ hnew]

theorem pathSeparator_eq (env : Environment) :
    env.pathSeparator = ";" ∨ env.pathSeparator = ":" := by
  unfold Environment.pathSeparator Os.pathSeparatorOf
  cases env.os with
  | none =>
      exact .inr rfl
  | some os =>
      rw [Option.map_some, Option.getD_some]
      unfold Os.pathSeparator
      split
      · exact .inl rfl
      · exact .inr rfl

/-- The separators of an environment keep no meaning between double quotes when its declared ones do
not. -/
theorem joiner_plain {env : Environment}
    (h : ∀ v ∈ env.vars, ∀ joiner, v.separator = .text joiner →
      ∀ c ∈ joiner.toList, Shell.isSpecial c = false) {v : Variable} (hv : v ∈ env.vars) :
    ∀ c ∈ (v.joiner env.pathSeparator).toList, Shell.isSpecial c = false := by
  cases hseparator : v.separator with
  | text joiner =>
      simpa [Variable.joiner, hseparator] using h v hv joiner hseparator
  | path =>
      rcases pathSeparator_eq env with hpath | hpath
      · simp [Variable.joiner, hseparator, hpath, Shell.isSpecial]
      · simp [Variable.joiner, hseparator, hpath, Shell.isSpecial]

/-- The script of an environment ends with the lines that change its variables. Run from any
environment, they end in the one where each variable of the environment has its text over the value
that it had before and is missing if it is unset, and all other variables are as before. -/
theorem run_assignments (env : Environment) (file : String) (E : Bindings)
    (hnames : ∀ name ∈ env.names, Graph.isVariableName name)
    (hseparators : ∀ v ∈ env.vars, ∀ joiner, v.separator = .text joiner →
      ∀ c ∈ joiner.toList, Shell.isSpecial c = false) :
    script env file
        = Text.Lines.render "\n"
            (headerLines env (escape file) ++ captureLines env.names (escape file))
          ++ "\n" ++ Text.Lines.render "\n" (assignmentLines env)
      ∧ ∃ E', Shell.run E (Text.Lines.render "\n" (assignmentLines env)) = some E'
        ∧ ∀ name, E' name
          = if name ∈ env.names then env.getOver? name ((E name).getD "") else E name := by
  have hvalid : ∀ v ∈ env.vars, Graph.isVariableName v.name := fun v hv =>
    hnames v.name (List.mem_map.mpr ⟨v, hv, rfl⟩)
  refine ⟨?_, assigned env.pathSeparator env.vars E, ?_, ?_⟩
  · simp [script, Text.Lines.render, String.append_assoc]
  · rw [Shell.run, assignmentLines, tokens_lines hvalid fun v hv => joiner_plain hseparators hv]
    exact runTokens_lines env.pathSeparator env.names_nodup hvalid E
  · intro name
    by_cases hmem : name ∈ env.names
    · rcases Variables.mem_names_iff.mp hmem with ⟨v, hfind⟩
      rw [if_pos hmem, Environment.getOver?, Environment.find?, assigned, hfind, Option.bind_some]
    · rw [if_neg hmem, assigned, Variables.find_eq_none_iff.mpr hmem]

/-- Values with characters that mean something to a shell, around an outer value and alone. -/
def quoting : Environment where
  consumer := "app"
  scope := .run
  os := some .linux
  vars := [
    ⟨"GREETING", [.value "say \"hi\"", .previous, .value "$\x7bPATH\x7d\n\\"], .text ", "⟩,
    ⟨"PATH", [.value "/opt/$x", .previous], .path⟩,
    ⟨"STALE", [], .text " "⟩,
    ⟨"_1", [.value "\x60ls\x60"], .text " "⟩]
  names_nodup := by decide

theorem run_assignments_quoting :
    ∃ E', Shell.run (fun name => if name = "STALE" then none else some "\"")
        (Text.Lines.render "\n" (assignmentLines quoting)) = some E'
      ∧ E' "GREETING" = some "say \"hi\", \", $\x7bPATH\x7d\n\\" ∧ E' "PATH" = some "/opt/$x:\""
      ∧ E' "STALE" = none ∧ E' "_1" = some "\x60ls\x60" ∧ E' "HOME" = some "\"" := by
  have hnames : ∀ name ∈ quoting.names, Graph.isVariableName name := List.all_eq_true.mp rfl
  have hseparators : ∀ v ∈ quoting.vars, ∀ joiner, v.separator = .text joiner →
      ∀ c ∈ joiner.toList, Shell.isSpecial c = false := by
    intro v hv joiner hjoiner
    simp only [quoting, List.mem_cons, List.not_mem_nil, or_false] at hv
    rcases hv with rfl | rfl | rfl | rfl <;> cases hjoiner <;> simp [Shell.isSpecial]
  obtain ⟨_, E', hrun, hvalues⟩ := run_assignments quoting "/out/deactivate.sh"
    (fun name => if name = "STALE" then none else some "\"") hnames hseparators
  refine ⟨E', hrun, ?_, ?_, ?_, ?_, ?_⟩
  all_goals
    rw [hvalues]
    decide

end EnvLayers.Sh
