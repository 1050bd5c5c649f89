import EnvLayers.Profile.Line
import EnvLayers.Proofs.Text.Cut

/-
Module: EnvLayers.Proofs.Profile.Definition
Purpose: The definitions that lines of a profile give, as a condition on patterns, names and values,
  and a line for each of them. A definition that is read from any line can be written in that way
  and is read as the same definition again.
Main exports: Line.IsName, Line.IsPattern, Line.HasLineValue, Line.IsDefinition, Line.print,
  Line.ReadsSubject, Line.isDefinition_of_definition?, Line.definition?_print,
  Line.definition_printed
-/

namespace EnvLayers.Line

open Text

/-- A name that a line of a profile can define. -/
def IsName (name : String) : Prop :=
  name ≠ "" ∧ ∀ c ∈ name.toList, isBlank c = false ∧ c ≠ '=' ∧ c ≠ ':'

/-- A pattern that a line of a profile can restrict its definition to. -/
structure IsPattern (pattern : String) : Prop where
  ne_empty : pattern ≠ ""
  noBlankStart : NoBlankStart pattern.toList
  noBlankEnd : NoBlankEnd pattern.toList
  noEquals : '=' ∉ pattern.toList

/-- The mark in front of an entry of a path list. -/
def pathMark : List Char := "(path)".toList

/-- An operation with a value that a line can hold: no separator is declared, and the value is found
again between the blanks around it and behind the mark of a path list. -/
def HasLineValue : Op → Prop
  | .put _ _ value isPath separator =>
    separator = none ∧ NoBlankEnd value.toList
      ∧ (isPath = false → NoBlankStart value.toList ∧ ¬ pathMark <+: value.toList)
  | .unset _ => True

/-- The patterns and operations that lines of a profile define. -/
structure IsDefinition (pattern : Option String) (op : Op) : Prop where
  pattern : ∀ p, pattern = some p → IsPattern p
  name : IsName op.name
  value : HasLineValue op

/-! ### Writing a definition -/

/-- What stands to the left of the operator. -/
def subjectText (pattern : Option String) (name : String) : List Char :=
  match pattern with
  | some p => p.toList ++ ':' :: name.toList
  | none => name.toList

/-- A value, behind the mark of a path list where it is an entry of one. -/
def valueText (isPath : Bool) (value : String) : List Char :=
  (if isPath then pathMark else []) ++ value.toList

/-- The line of a definition. A blank in front of the equals sign keeps a final plus of the name
apart from the operator, and a blank behind it keeps the start of the value apart. -/
def print (pattern : Option String) : Op → List Char
  | .put .define name value isPath _ =>
    subjectText pattern name ++ " = ".toList ++ valueText isPath value
  | .put .append name value isPath _ =>
    subjectText pattern name ++ "+= ".toList ++ valueText isPath value
  | .put .prepend name value isPath _ =>
    subjectText pattern name ++ " =+ ".toList ++ valueText isPath value
  | .unset name => subjectText pattern name ++ " =!".toList

variable {pattern : Option String} {name : String} {op : Op} {left right line : List Char}

/-! ### What is read from a line -/

theorem name_opOf (appending : Bool) (name : String) (right : List Char) :
    (opOf appending name right).name = name := by
  have hput : ∀ place right, (putOp place name right).name = name := by
    intro place right
    unfold putOp
    dsimp only
    split <;> rfl
  unfold opOf
  split
  · exact hput _ _
  · split
    · rfl
    · exact hput _ _
    · exact hput _ _

/-- The part of a subject that gives the name, blanks around it included. -/
structure IsNamePart (part : List Char) : Prop where
  noColon : ':' ∉ part
  ne_empty : trim part ≠ []
  noBlank : ∀ c ∈ trim part, isBlank c = false

/-- A subject is a name, or a pattern and a name on the two sides of the last colon. -/
inductive ReadsSubject : List Char → Option String → String → Prop where
  | name {part : List Char} (h : IsNamePart part) :
      ReadsSubject part none (String.ofList (trim part))
  | pattern {before part : List Char} (h : IsNamePart part) (hne : trim before ≠ []) :
      ReadsSubject (before ++ ':' :: part) (some (String.ofList (trim before)))
        (String.ofList (trim part))

theorem readsSubject_of_subject? (h : subject? left = some (pattern, name)) :
    ReadsSubject left pattern name := by
  -- the checks are the same for what follows the last colon and for a text without one
  have hchecked : ∀ (start : Option (List Char)) (part : List Char), ':' ∉ part →
      (if (trim part).isEmpty || (trim part).any isBlank then none
        else if start = some [] then none
        else some (start.map String.ofList, String.ofList (trim part))) = some (pattern, name) →
      IsNamePart part ∧ start ≠ some [] ∧ pattern = start.map String.ofList
        ∧ name = String.ofList (trim part) := by
    intro start part hcolon h
    split at h
    · cases h
    · next hvalid =>
        simp only [Bool.or_eq_true, List.isEmpty_iff, List.any_eq_true, not_or, not_exists,
          not_and, Bool.not_eq_true] at hvalid
        split at h
        · cases h
        · next hstart =>
            cases h
            exact ⟨⟨hcolon, hvalid.1, hvalid.2⟩, hstart, rfl, rfl⟩
  unfold subject? at h
  cases hcut : cutLast ':' left with
  | none =>
      rw [hcut] at h
      obtain ⟨hpart, -, rfl, rfl⟩ := hchecked none left (cutLast_eq_none_iff.mp hcut) h
      exact .name hpart
  | some parts =>
      rw [hcut] at h
      obtain ⟨rfl, hcolon⟩ := cutLast_eq_some hcut
      obtain ⟨hpart, hstart, rfl, rfl⟩ := hchecked (some (trim parts.1)) parts.2 hcolon h
      exact .pattern hpart fun hempty => hstart (congrArg some hempty)

theorem ofList_ne_empty {cs : List Char} (h : cs ≠ []) : String.ofList cs ≠ "" :=
  fun hempty => h (by simpa using congrArg String.toList hempty)

theorem IsNamePart.isName {part : List Char} (h : IsNamePart part) (hequals : '=' ∉ part) :
    IsName (String.ofList (trim part)) := by
  refine ⟨ofList_ne_empty h.ne_empty, fun c hc => ?_⟩
  rw [String.toList_ofList] at hc
  refine ⟨h.noBlank c hc, ?_, ?_⟩
  · rintro rfl
    exact hequals (mem_of_mem_trim hc)
  · rintro rfl
    exact h.noColon (mem_of_mem_trim hc)

theorem isPattern_trim {before : List Char} (hne : trim before ≠ []) (hequals : '=' ∉ before) :
    IsPattern (String.ofList (trim before)) where
  ne_empty := ofList_ne_empty hne
  noBlankStart := by
    rw [String.toList_ofList]
    exact noBlankStart_trim before
  noBlankEnd := by
    rw [String.toList_ofList]
    exact noBlankEnd_trim before
  noEquals := by
    rw [String.toList_ofList]
    exact hequals ∘ mem_of_mem_trim

/-- To the left of the equals sign nothing but patterns and names are read. -/
theorem ReadsSubject.isPattern_and_isName (h : ReadsSubject left pattern name)
    (hequals : '=' ∉ left) : (∀ p, pattern = some p → IsPattern p) ∧ IsName name := by
  cases h with
  | name hpart =>
      exact ⟨nofun, hpart.isName hequals⟩
  | @pattern before part hpart hne =>
      simp only [List.mem_append, List.mem_cons, not_or] at hequals
      refine ⟨?_, hpart.isName hequals.2.2⟩
      intro p hp
      cases hp
      exact isPattern_trim hne hequals.1

/-- The marked value of a path list, and a value without the mark. -/
theorem putOp_cases (place : Placement) (name : String) (right : List Char) :
    (∃ rest, trim right = pathMark ++ rest
      ∧ putOp place name right = .put place name (String.ofList rest) true none)
    ∨ ¬ pathMark <+: trim right
      ∧ putOp place name right = .put place name (String.ofList (trim right)) false none := by
  cases hmark : dropPrefix "(path)".toList (trim right) with
  | some rest =>
      refine .inl ⟨rest, (List.isPrefixOf?_eq_some_iff_append_eq.mp hmark).symm, ?_⟩
      rw [putOp, hmark]
  | none =>
      refine .inr ⟨?_, by rw [putOp, hmark]⟩
      rintro ⟨rest, hvalue⟩
      have hsome := List.isPrefixOf?_eq_some_iff_append_eq.mpr hvalue
      rw [dropPrefix, ← pathMark, hsome] at hmark
      cases hmark

theorem hasLineValue_putOp (place : Placement) (name : String) (right : List Char) :
    HasLineValue (putOp place name right) := by
  have hend := noBlankEnd_trim right
  obtain ⟨rest, hvalue, hput⟩ | ⟨hmark, hput⟩ := putOp_cases place name right
  · rw [hput]
    refine ⟨rfl, fun c hc => hend c ?_, nofun⟩
    rw [String.toList_ofList] at hc
    rw [hvalue, Option.mem_def, List.getLast?_append, Option.mem_def.mp hc, Option.some_or]
  · rw [hput, HasLineValue, String.toList_ofList]
    exact ⟨rfl, hend, fun _ => ⟨noBlankStart_trim right, hmark⟩⟩

theorem hasLineValue_opOf (appending : Bool) (name : String) (right : List Char) :
    HasLineValue (opOf appending name right) := by
  unfold opOf
  split
  · exact hasLineValue_putOp _ _ _
  · split
    · trivial
    · exact hasLineValue_putOp _ _ _
    · exact hasLineValue_putOp _ _ _

/-- A definition has its subject in front of the first equals sign and of a plus that makes it an
append. -/
theorem exists_subject_of_definition? (h : definition? line = some (pattern, op)) :
    ∃ left appending name right, '=' ∉ left ∧ subject? left = some (pattern, name)
      ∧ op = opOf appending name right := by
  unfold definition? at h
  obtain ⟨⟨left, right⟩, hcut, h⟩ := Option.bind_eq_some_iff.mp h
  have hequals := (cutFirst_eq_some hcut).2
  cases hplus : dropFinal '+' left with
  | none =>
      simp only [hplus] at h
      obtain ⟨⟨start, name⟩, hsubject, hop⟩ := Option.bind_eq_some_iff.mp h
      cases hop
      exact ⟨left, false, name, right, hequals, hsubject, rfl⟩
  | some part =>
      have hpart : '=' ∉ part := fun hmem => hequals (by simp [dropFinal_eq_some hplus, hmem])
      simp only [hplus] at h
      obtain ⟨⟨start, name⟩, hsubject, hop⟩ := Option.bind_eq_some_iff.mp h
      cases hop
      exact ⟨part, true, name, right, hpart, hsubject, rfl⟩

/-- Whatever a line defines is a definition. -/
theorem isDefinition_of_definition? (h : definition? line = some (pattern, op)) :
    IsDefinition pattern op := by
  obtain ⟨left, appending, name, right, hequals, hsubject, rfl⟩ := exists_subject_of_definition? h
  obtain ⟨hpattern, hname⟩ :=
    (readsSubject_of_subject? hsubject).isPattern_and_isName hequals
  refine ⟨hpattern, ?_, hasLineValue_opOf appending name right⟩
  rw [name_opOf]
  exact hname

/-! ### Reading what was written -/

theorem IsName.noBlank (h : IsName name) : ∀ c ∈ name.toList, isBlank c = false :=
  fun c hc => (h.2 c hc).1

theorem IsName.equals_not_mem (h : IsName name) : '=' ∉ name.toList :=
  fun hmem => (h.2 _ hmem).2.1 rfl

theorem IsName.colon_not_mem (h : IsName name) : ':' ∉ name.toList :=
  fun hmem => (h.2 _ hmem).2.2 rfl

theorem equals_not_mem_subjectText (hpattern : ∀ p, pattern = some p → IsPattern p)
    (hname : IsName name) : '=' ∉ subjectText pattern name := by
  cases pattern with
  | none =>
      exact hname.equals_not_mem
  | some p =>
      simp [subjectText, (hpattern p rfl).noEquals, hname.equals_not_mem]

/-- A pattern and a name are read back from what was written of them, with or without blanks after
it. -/
theorem subject?_subjectText (hpattern : ∀ p, pattern = some p → IsPattern p)
    (hname : IsName name) (tail : List Char) (hcolon : ':' ∉ tail)
    (htail : trim (name.toList ++ tail) = trim name.toList) :
    subject? (subjectText pattern name ++ tail) = some (pattern, name) := by
  have hpart : ':' ∉ name.toList ++ tail := by
    simp [hname.colon_not_mem, hcolon]
  have htrim : trim (name.toList ++ tail) = name.toList := by
    rw [htail, trim_of_no_blank hname.noBlank]
  have hvalid : (name.toList.isEmpty || name.toList.any isBlank) = false := by
    simpa [hname.1] using hname.noBlank
  cases pattern with
  | none =>
      simp [subject?, subjectText, cutLast_eq_none_iff.mpr hpart, htrim, hvalid]
  | some p =>
      have hp := hpattern p rfl
      have hcut := cutLast_of_not_mem hpart p.toList
      have hne : p.toList ≠ [] := fun hempty => hp.ne_empty (by simpa using hempty)
      simp [subject?, subjectText, hcut, htrim, hvalid, trim_eq_self hp.noBlankStart hp.noBlankEnd,
        hne]

/-- A definition without a plus in front of its first equals sign. -/
theorem definition?_plain (hequals : '=' ∉ left) (hplus : dropFinal '+' left = none)
    (hsubject : subject? left = some (pattern, name)) (right : List Char) :
    definition? (left ++ '=' :: right) = some (pattern, opOf false name right) := by
  simp [definition?, cutFirst_of_not_mem hequals right, hplus, hsubject]

/-- A definition with a plus in front of its first equals sign. -/
theorem definition?_plus (hequals : '=' ∉ left) (hsubject : subject? left = some (pattern, name))
    (right : List Char) :
    definition? (left ++ '+' :: '=' :: right) = some (pattern, opOf true name right) := by
  have hcut : cutFirst '=' (left ++ '+' :: '=' :: right) = some (left ++ ['+'], right) := by
    have hequals : '=' ∉ left ++ ['+'] := by simp [hequals]
    simpa using cutFirst_of_not_mem hequals right
  simp [definition?, hcut, dropFinal_append, hsubject]

/-- A value is read back from what was written of it. -/
theorem putOp_valueText {place : Placement} {value : String} {isPath : Bool}
    {separator : Option String} (h : HasLineValue (.put place name value isPath separator)) :
    putOp place name (' ' :: valueText isPath value) = .put place name value isPath separator := by
  obtain ⟨rfl, hend, hstart⟩ := h
  cases isPath with
  | false =>
      obtain ⟨hstart, hmark⟩ := hstart rfl
      have htrim : trim (' ' :: valueText false value) = value.toList := by
        rw [trim_cons_blank rfl]
        exact trim_eq_self hstart hend
      obtain ⟨rest, hvalue, -⟩ | ⟨-, hput⟩ :=
        putOp_cases place name (' ' :: valueText false value)
      · exact absurd ⟨rest, (htrim ▸ hvalue).symm⟩ hmark
      · rw [hput, htrim, String.ofList_toList]
  | true =>
      have htrim : trim (' ' :: valueText true value) = pathMark ++ value.toList := by
        rw [trim_cons_blank rfl]
        have hmark : NoBlankStart pathMark ∧ NoBlankEnd pathMark := by
          have hopen : isBlank '(' = false := rfl
          have hclose : isBlank ')' = false := rfl
          simp [NoBlankStart, NoBlankEnd, pathMark, hopen, hclose]
        exact trim_eq_self hmark.1 (hmark.2.append hend)
      obtain ⟨rest, hvalue, hput⟩ | ⟨hmark, -⟩ :=
        putOp_cases place name (' ' :: valueText true value)
      · rw [hput, ← List.append_cancel_left (htrim.symm.trans hvalue), String.ofList_toList]
      · exact absurd ⟨value.toList, htrim.symm⟩ hmark

/-- A definition is read back from the line that was written of it. -/
theorem definition?_print (h : IsDefinition pattern op) :
    definition? (print pattern op) = some (pattern, op) := by
  obtain ⟨hpattern, hname, hvalue⟩ := h
  have hequals := equals_not_mem_subjectText hpattern hname
  -- the blank in front of the equals sign is trimmed off the name and is no plus
  have hspaced : ∀ right, definition? ((subjectText pattern op.name ++ [' ']) ++ '=' :: right)
      = some (pattern, opOf false op.name right) := by
    refine fun right => definition?_plain (by simp [hequals]) (by simp [dropFinal]) ?_ right
    exact subject?_subjectText hpattern hname [' '] (by simp) (trim_append_blank rfl _)
  have hplus : ∀ right, definition? (subjectText pattern op.name ++ '+' :: '=' :: right)
      = some (pattern, opOf true op.name right) := by
    refine fun right => definition?_plus hequals ?_ right
    simpa using subject?_subjectText hpattern hname [] (by simp) (by simp)
  cases op with
  | unset name =>
      simpa [print, Op.name, opOf] using hspaced ['!']
  | put place name value isPath separator =>
      have hput := putOp_valueText hvalue
      cases place with
      | define =>
          simpa [print, Op.name, opOf, hput] using hspaced (' ' :: valueText isPath value)
      | append =>
          simpa [print, Op.name, opOf, hput] using hplus (' ' :: valueText isPath value)
      | prepend =>
          simpa [print, Op.name, opOf, hput] using hspaced ('+' :: ' ' :: valueText isPath value)

/-- A line is written of exactly the definitions, so that it is read as the definition again, and
no line at all gives anything else. -/
theorem definition_printed (pattern : Option String) (op : Op) :
    (IsDefinition pattern op ↔ definition? (print pattern op) = some (pattern, op))
      ∧ ((∃ line, definition? line = some (pattern, op)) ↔ IsDefinition pattern op) := by
  constructor
  · exact ⟨definition?_print, isDefinition_of_definition?⟩
  · constructor
    · rintro ⟨line, h⟩
      exact isDefinition_of_definition? h
    · intro h
      exact ⟨print pattern op, definition?_print h⟩

/-- A line with other blanks gives the same definition as the one that is written of it. -/
example :
    print (some "gcc:12") (.prepend "C++" "!x") = "gcc:12:C++ =+ !x".toList
      ∧ definition? "gcc:12 : C++ =+!x ".toList
        = some (some "gcc:12", .prepend "C++" "!x") := by
  decide

end EnvLayers.Line
