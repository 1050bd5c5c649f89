import EnvLayers.Proofs.Batch.Percent
import EnvLayers.Proofs.Script.Sh
import EnvLayers.Script.Bat

/-
Module: EnvLayers.Proofs.Script.Bat
Purpose: The lines of a batch file that change variables, after their percent signs are expanded:
  each of them gives its variable the text that it has over its value outside. The percent signs of
  values are doubled, so none of them is a partner of one that belongs to a reference.
Main exports: Bat.expands_escape, Bat.expands_valueText, Bat.assignment, Bat.expand_assignmentLine,
  Bat.newline_not_mem_assignmentLine, Bat.expand_assignments
-/

namespace EnvLayers.Bat

open Batch (Bindings Expands)

/-! ### Values -/

theorem expands_escape (E : Bindings) (s : String) : Expands E (escape s).toList s.toList := by
  rw [escape, String.toList_ofList]
  induction s.toList with
  | nil =>
      exact Expands.nil
  | cons c cs ih =>
      rw [List.flatMap_cons, ← List.singleton_append (x := c)]
      apply Expands.append _ ih
      unfold escapeChar
      split
      · next hpercent =>
          rw [beq_iff_eq.mp hpercent]
          exact Expands.doubled
      · next hplain =>
          exact Expands.char (mt beq_iff_eq.mpr hplain)

theorem expands_reference (E : Bindings) {name : String} (h : Graph.isVariableName name) :
    Expands E (reference name).toList ((E name).getD "").toList := by
  have htext : (reference name).toList = '%' :: (name.toList ++ ['%']) := by
    simp [reference]
  rw [htext]
  exact Expands.reference h

/-- The text of a variable expands to its text over the value outside. -/
theorem expands_valueText {E : Bindings} {v : Variable} {pathSeparator text : String}
    (hname : Graph.isVariableName v.name) (hjoiner : '%' ∉ (v.joiner pathSeparator).toList)
    (h : Script.valueText? escape (reference v.name) pathSeparator v = some text) :
    ∃ value, v.flatten (some ((E v.name).getD "")) pathSeparator = some value
      ∧ Expands E text.toList value.toList := by
  unfold Script.valueText? at h
  split at h
  · cases h
  · next hset =>
      cases h
      have hentry : ∀ item, Option.Rel (Expands E)
          ((Script.entryText escape (reference v.name) item).map String.toList)
          ((Variable.shown (some ((E v.name).getD "")) item).map String.toList) := by
        intro item
        cases item with
        | previous =>
            exact .some (expands_reference E hname)
        | value part =>
            by_cases hempty : part = ""
            · simp only [Script.entryText, Variable.shown, if_pos hempty]
              exact .none
            · simp only [Script.entryText, Variable.shown, if_neg hempty]
              exact .some (expands_escape E part)
      have hvalue := intercalate_rel Expands.nil Expands.append (Expands.chars hjoiner)
        (forall₂_filterMap hentry v.items)
      rw [← List.map_filterMap, ← List.map_filterMap, ← String.toList_intercalate,
        ← String.toList_intercalate] at hvalue
      exact ⟨_, if_neg hset, hvalue⟩

/-! ### Lines -/

/-- The command that gives a variable a text or removes it. -/
def assignment (name : String) : Option String → String
  | some text => "set \"" ++ name ++ "=" ++ text ++ "\""
  | none => "set " ++ name ++ "="

theorem expand_assignmentLine (E : Bindings) {v : Variable} {pathSeparator : String}
    (hname : Graph.isVariableName v.name) (hjoiner : '%' ∉ (v.joiner pathSeparator).toList) :
    Batch.expand? E (assignmentLine pathSeparator v)
      = some (assignment v.name (v.flatten (some ((E v.name).getD "")) pathSeparator)) := by
  have hpercent := Shell.not_mem_name hname rfl (c := '%')
  apply Batch.expand?_of_expands
  unfold assignmentLine
  cases htext : Script.valueText? escape (reference v.name) pathSeparator v with
  | none =>
      have hunset : v.isUnset = true := by
        simpa [Script.valueText?] using htext
      have hnone : v.flatten (some ((E v.name).getD "")) pathSeparator = none := by
        simp [Variable.flatten, hunset]
      rw [hnone]
      apply Expands.chars
      simp [hpercent]
  | some text =>
      obtain ⟨value, hvalue, hexpands⟩ := @expands_valueText E v _ _ hname hjoiner htext
      have hopen : Expands E ("set \"" ++ v.name ++ "=").toList
          ("set \"" ++ v.name ++ "=").toList := by
        apply Expands.chars
        simp [hpercent]
      have hclose : Expands E "\"".toList "\"".toList := Expands.chars (by decide)
      rw [hvalue, assignment]
      simpa [String.append_assoc] using (hopen.append hexpands).append hclose

/-! ### Line ends -/

/-- What holds of the characters of a separator and of all parts holds of those of the joined
text. -/
theorem forall_mem_joined {P : Char → Prop} {joiner : String} {items : List Item}
    {part? : Item → Option String} (hjoiner : ∀ c ∈ joiner.toList, P c)
    (h : ∀ item ∈ items, ∀ part ∈ part? item, ∀ c ∈ part.toList, P c) :
    ∀ c ∈ (joiner.intercalate (items.filterMap part?)).toList, P c := by
  rw [String.toList_intercalate, List.map_filterMap]
  apply forall_mem_intercalate hjoiner
  intro cs hcs
  obtain ⟨item, hitem, htext⟩ := List.mem_filterMap.mp hcs
  obtain ⟨part, hpart, rfl⟩ := Option.map_eq_some_iff.mp htext
  exact h item hitem part hpart

theorem mem_escape {s : String} {c : Char} (h : c ∈ (escape s).toList) : c ∈ s.toList := by
  rw [escape, String.toList_ofList] at h
  obtain ⟨d, hd, hc⟩ := List.mem_flatMap.mp h
  unfold escapeChar at hc
  split at hc
  · next hpercent =>
      rw [beq_iff_eq.mp hpercent] at hd
      simp only [List.mem_cons, List.not_mem_nil, or_false, or_self] at hc
      exact hc ▸ hd
  · exact List.mem_singleton.mp hc ▸ hd

theorem newline_not_mem_assignmentLine {v : Variable} {pathSeparator : String}
    (hname : Graph.isVariableName v.name)
    (hvalues : ∀ part, .value part ∈ v.items → '\n' ∉ part.toList)
    (hjoiner : '\n' ∉ (v.joiner pathSeparator).toList) :
    '\n' ∉ (assignmentLine pathSeparator v).toList := by
  have hbreak := Shell.not_mem_name hname rfl (c := '\n')
  unfold assignmentLine Script.valueText?
  split
  · next text htext =>
      split at htext
      · cases htext
      · cases htext
        have hparts : ∀ item ∈ v.items, ∀ part ∈ Script.entryText escape (reference v.name) item,
            ∀ c ∈ part.toList, c ≠ '\n' := by
          intro item hitem part hpart c hc heq
          subst heq
          cases item with
          | previous =>
              cases hpart
              simp [reference, hbreak] at hc
          | value text =>
              by_cases hempty : text = ""
              · simp [Script.entryText, hempty] at hpart
              · simp only [Script.entryText, if_neg hempty, Option.mem_def, Option.some.injEq]
                  at hpart
                subst hpart
                exact hvalues text hitem (mem_escape hc)
        have hseparator : ∀ c ∈ (v.joiner pathSeparator).toList, c ≠ '\n' := by
          rintro c hc rfl
          exact hjoiner hc
        have htext := forall_mem_joined hseparator hparts
        simp only [String.toList_append, List.mem_append, not_or]
        exact ⟨⟨⟨⟨by decide, hbreak⟩, by decide⟩, fun hmem => htext _ hmem rfl⟩, by decide⟩
  · simp [hbreak]

/-! ### The whole script -/

/-- A character that no declared separator holds is in no separator of the environment, unless it
separates paths. -/
theorem not_mem_joiner {env : Environment} {c : Char}
    (h : ∀ v ∈ env.vars, ∀ joiner, v.separator = .text joiner → c ∉ joiner.toList)
    (hpath : c ≠ ';' ∧ c ≠ ':') {v : Variable} (hv : v ∈ env.vars) :
    c ∉ (v.joiner env.pathSeparator).toList := by
  cases hseparator : v.separator with
  | text joiner =>
      simpa [Variable.joiner, hseparator] using h v hv joiner hseparator
  | path =>
      rcases Sh.pathSeparator_eq env with henv | henv
      · simpa [Variable.joiner, hseparator, henv] using hpath.1
      · simpa [Variable.joiner, hseparator, henv] using hpath.2

/-- The lines of the batch file of an environment end with one line for each of its variables, in
their order. In any environment outside, each of them expands to the command that gives its variable
the text that it has over its value there, or removes it if it is unset. -/
theorem expand_assignments (env : Environment) (file : String) (E : Bindings)
    (hnames : ∀ name ∈ env.names, Graph.isVariableName name)
    (hvalues : ∀ v ∈ env.vars, ∀ text, .value text ∈ v.items → '\n' ∉ text.toList)
    (hseparators : ∀ v ∈ env.vars, ∀ joiner, v.separator = .text joiner →
      '\n' ∉ joiner.toList ∧ '%' ∉ joiner.toList) :
    Batch.lines (script env file)
        = Batch.lines (Text.Lines.render "\r\n"
            (headerLines env file ++ captureLines env.names file ++ ["endlocal", ""]))
          ++ assignmentLines env
      ∧ (assignmentLines env).map (Batch.expand? E)
        = env.names.map fun name =>
            some (assignment name (env.getOver? name ((E name).getD ""))) := by
  have hvalid : ∀ v ∈ env.vars, Graph.isVariableName v.name := fun v hv =>
    hnames v.name (List.mem_map.mpr ⟨v, hv, rfl⟩)
  constructor
  · apply Batch.lines_render_append
    intro line hline
    obtain ⟨v, hv, rfl⟩ := List.mem_map.mp hline
    apply newline_not_mem_assignmentLine (hvalid v hv) (hvalues v hv)
    exact not_mem_joiner (fun w hw joiner hjoiner => (hseparators w hw joiner hjoiner).1)
      (by decide) hv
  · rw [assignmentLines, Environment.names, Variables.names, List.map_map, List.map_map]
    apply List.map_congr_left
    intro v hv
    have hjoiner := not_mem_joiner (c := '%')
      (fun w hw joiner hjoiner => (hseparators w hw joiner hjoiner).2) (by decide) hv
    have hfind : env.find? v.name = some v := Variables.find_of_mem env.names_nodup hv
    have hline := expand_assignmentLine E (hvalid v hv) hjoiner
    simpa [Environment.getOver?, hfind] using hline

/-- Percent signs in values, around an outer value and without anything between them. -/
def percents : Environment where
  consumer := "app"
  scope := .run
  os := some .windows
  vars := [
    ⟨"RATE", [.value "100%", .previous, .value "%PATH%"], .text ""⟩,
    ⟨"PATH", [.value "C:\\bin", .previous], .path⟩,
    ⟨"STALE", [], .text " "⟩]
  names_nodup := by decide

theorem newline_not_mem_percents :
    ∀ v ∈ percents.vars, ∀ text, .value text ∈ v.items → '\n' ∉ text.toList := by
  intro v hv text htext
  simp only [percents, List.mem_cons, List.not_mem_nil, or_false] at hv
  rcases hv with rfl | rfl | rfl
  · simp only [List.mem_cons, Item.value.injEq, reduceCtorEq, List.not_mem_nil, or_false,
      false_or] at htext
    rcases htext with rfl | rfl <;> decide
  · simp only [List.mem_cons, Item.value.injEq, reduceCtorEq, List.not_mem_nil, or_false]
      at htext
    subst htext
    decide
  · cases htext

theorem separators_percents :
    ∀ v ∈ percents.vars, ∀ joiner, v.separator = .text joiner →
      '\n' ∉ joiner.toList ∧ '%' ∉ joiner.toList := by
  intro v hv joiner hjoiner
  simp only [percents, List.mem_cons, List.not_mem_nil, or_false] at hv
  rcases hv with rfl | rfl | rfl <;> cases hjoiner <;> decide

theorem expand_assignments_percents :
    (assignmentLines percents).map
        (Batch.expand? fun name => if name = "RATE" then some "%RATE%" else none)
      = [some "set \"RATE=100%%RATE%%PATH%\"", some "set \"PATH=C:\\bin;\"",
        some "set STALE="] := by
  have hnames : ∀ name ∈ percents.names, Graph.isVariableName name := List.all_eq_true.mp rfl
  rw [(expand_assignments percents "C:\\out\\d.bat" _ hnames newline_not_mem_percents
    separators_percents).2]
  decide

end EnvLayers.Bat
