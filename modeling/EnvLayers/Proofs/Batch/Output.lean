import EnvLayers.Proofs.Batch.Percent

/-
Module: EnvLayers.Proofs.Batch.Output
Purpose: The files that the lines of a batch file send output to. After the percent signs of a line
  are expanded, a greater-than sign outside double quotes sends output to the file that follows it,
  with or without double quotes; a remark sends nothing. A line with a caret outside quotes, or with
  a name of a file that is no single word, is not covered.
Main exports: Batch.outputsFrom, Batch.IsContained, Batch.lineOutputs?, Batch.outputsOf?,
  Batch.outputs?, Batch.OpensFile, Batch.NamesFile, Batch.OpensFile.lineOutputs?_eq,
  Batch.OpensFile.exists_ne_of_percent
-/

namespace EnvLayers.Batch

/-! ### Lines after expansion -/

/-- Where the next character is read: outside quotes, between quotes, before the name of a file,
with or without a second sign to come, in such a name, bare or quoted, or after its last quote. -/
inductive Spot where
  | bare
  | quoted
  | before (second : Bool)
  | word (read : List Char)
  | file (read : List Char)
  | closed
deriving Repr, DecidableEq

def isBlank (c : Char) : Bool := c == ' ' || c == '\t'

/-- The characters that a name without quotes does not have. -/
def isDelimiter (c : Char) : Bool :=
  ['"', '<', '>', '|', '&', '^', '(', ')', ',', ';', '='].contains c

/-- The files that the rest of an expanded line sends output to. -/
def outputsFrom : Spot → List Char → Option (List String)
  | .bare, [] => some []
  | .bare, c :: cs =>
    if c = '"' then outputsFrom .quoted cs
    else if c = '>' then outputsFrom (.before true) cs
    else if c = '^' then none
    else outputsFrom .bare cs
  | .quoted, [] => some []
  | .quoted, c :: cs => if c = '"' then outputsFrom .bare cs else outputsFrom .quoted cs
  | .before _, [] => none
  | .before second, c :: cs =>
    if second ∧ c = '>' then outputsFrom (.before false) cs
    else if isBlank c then outputsFrom (.before false) cs
    else if c = '"' then outputsFrom (.file []) cs
    else if isDelimiter c then none
    else outputsFrom (.word [c]) cs
  | .word read, [] => some [String.ofList read]
  | .word read, c :: cs =>
    if isBlank c then (outputsFrom .bare cs).map (String.ofList read :: ·)
    else if isDelimiter c then none
    else outputsFrom (.word (read ++ [c])) cs
  | .file _, [] => none
  | .file read, c :: cs =>
    if c = '"' then (outputsFrom .closed cs).map (String.ofList read :: ·)
    else outputsFrom (.file (read ++ [c])) cs
  | .closed, [] => some []
  | .closed, c :: cs => if isBlank c then outputsFrom .bare cs else none

variable {cs : List Char} {files : List String}

/-- A text without signs and carets redirects nothing, inside quotes or outside. -/
theorem outputsFrom_silent (hsign : '>' ∉ cs) (hcaret : '^' ∉ cs) :
    outputsFrom .bare cs = some [] ∧ outputsFrom .quoted cs = some [] := by
  induction cs with
  | nil =>
      exact ⟨rfl, rfl⟩
  | cons c cs ih =>
      obtain ⟨hc, hsigns⟩ := not_or.mp (mt List.mem_cons.mpr hsign)
      obtain ⟨hd, hcarets⟩ := not_or.mp (mt List.mem_cons.mpr hcaret)
      obtain ⟨hbare, hquoted⟩ := ih hsigns hcarets
      by_cases hquote : c = '"'
      · simp [outputsFrom, hquote, hbare, hquoted]
      · simp [outputsFrom, hquote, Ne.symm hc, Ne.symm hd, hbare, hquoted]

theorem outputsFrom_quoted (h : '"' ∉ cs) (rest : List Char) :
    outputsFrom .quoted (cs ++ '"' :: rest) = outputsFrom .bare rest := by
  induction cs with
  | nil =>
      simp [outputsFrom]
  | cons c cs ih =>
      obtain ⟨hc, hcs⟩ := not_or.mp (mt List.mem_cons.mpr h)
      rw [List.cons_append, outputsFrom, if_neg (Ne.symm hc), ih hcs]

/-- Between quotes the text redirects nothing: it does not end them, or it has no sign and caret. -/
def IsContained (cs : List Char) : Prop := '"' ∉ cs ∨ '>' ∉ cs ∧ '^' ∉ cs

theorem IsContained.outputsFrom_quoted (h : IsContained cs) :
    outputsFrom .quoted (cs ++ ['"']) = some [] := by
  rcases h with hquote | ⟨hsign, hcaret⟩
  · exact Batch.outputsFrom_quoted hquote []
  · apply (outputsFrom_silent _ _).2
    · simp [hsign]
    · simp [hcaret]

/-- A name between quotes is read up to the next quote. -/
theorem outputsFrom_file (h : '"' ∉ cs) (read rest : List Char) :
    outputsFrom (.file read) (cs ++ '"' :: rest)
      = (outputsFrom .closed rest).map (String.ofList (read ++ cs) :: ·) := by
  induction cs generalizing read with
  | nil =>
      simp [outputsFrom]
  | cons c cs ih =>
      obtain ⟨hc, hcs⟩ := not_or.mp (mt List.mem_cons.mpr h)
      rw [List.cons_append, outputsFrom, if_neg (Ne.symm hc), ih hcs, List.append_assoc,
        List.singleton_append]

/-- The first file is what stands before the next quote. -/
theorem exists_of_outputsFrom_file {read : List Char}
    (h : outputsFrom (.file read) cs = some files) :
    ∃ name rest more, cs = name ++ '"' :: rest ∧ files = String.ofList (read ++ name) :: more := by
  induction cs generalizing read with
  | nil =>
      cases h
  | cons c cs ih =>
      rw [outputsFrom] at h
      split at h
      · next hc =>
          subst hc
          obtain ⟨more, -, rfl⟩ := Option.map_eq_some_iff.mp h
          exact ⟨[], cs, more, rfl, by rw [List.append_nil]⟩
      · obtain ⟨name, rest, more, rfl, rfl⟩ := ih h
        exact ⟨c :: name, rest, more, rfl, by simp⟩

/-! ### Lines of a batch file -/

/-- A remark, which the whole line belongs to. -/
def isRemark (line : List Char) : Bool := "rem ".toList.isPrefixOf line

/-- The files that a line sends output to. -/
def lineOutputs? (E : Bindings) (line : String) : Option (List String) :=
  if isRemark line.toList then some []
  else (expand? E line).bind fun expanded => outputsFrom .bare expanded.toList

/-- The files that lines send output to, in order. -/
def outputsOf? (E : Bindings) : List String → Option (List String)
  | [] => some []
  | line :: rest => do return (← lineOutputs? E line) ++ (← outputsOf? E rest)

/-- The files that the lines of a batch file send output to. -/
def outputs? (E : Bindings) (text : String) : Option (List String) := outputsOf? E (lines text)

variable {E : Bindings} {line file : String} {ls : List String} {parts : List (List String)}

theorem outputsOf?_cons (h : lineOutputs? E line = some files) (ls : List String) :
    outputsOf? E (line :: ls) = (outputsOf? E ls).map (files ++ ·) := by
  rw [outputsOf?, h]
  cases outputsOf? E ls <;> rfl

theorem exists_of_outputsOf?_cons (h : outputsOf? E (line :: ls) = some files) :
    ∃ first rest, lineOutputs? E line = some first ∧ outputsOf? E ls = some rest
      ∧ files = first ++ rest := by
  simp only [outputsOf?, Option.bind_eq_bind, Option.bind_eq_some_iff, Option.pure_def,
    Option.some.injEq] at h
  obtain ⟨first, hline, rest, hrest, rfl⟩ := h
  exact ⟨first, rest, hline, hrest, rfl⟩

theorem outputsOf?_of_forall₂
    (h : List.Forall₂ (fun line files => lineOutputs? E line = some files) ls parts) :
    outputsOf? E ls = some parts.flatten := by
  induction h with
  | nil =>
      rfl
  | cons hline _ ih =>
      rw [outputsOf?_cons hline, ih]
      rfl

theorem lineOutputs?_of_expand? {expanded : String} (hremark : isRemark line.toList = false)
    (h : expand? E line = some expanded) :
    lineOutputs? E line = outputsFrom .bare expanded.toList := by
  simp [lineOutputs?, hremark, h]

theorem lineOutputs?_of_expands {expanded : String} (hremark : isRemark line.toList = false)
    (h : Expands E line.toList expanded.toList) :
    lineOutputs? E line = outputsFrom .bare expanded.toList :=
  lineOutputs?_of_expand? hremark (expand?_of_expands h)

theorem outputsOf?_append (h : outputsOf? E ls = some files) (more : List String) :
    outputsOf? E (ls ++ more) = (outputsOf? E more).map (files ++ ·) := by
  induction ls generalizing files with
  | nil =>
      cases h
      simp
  | cons line ls ih =>
      obtain ⟨first, rest, hline, hrest, rfl⟩ := exists_of_outputsOf?_cons h
      rw [List.cons_append, outputsOf?_cons hline, ih hrest, Option.map_map]
      congr 1
      funext others
      exact (List.append_assoc first rest others).symm

theorem outputsOf?_of_forall (h : ∀ line ∈ ls, lineOutputs? E line = some []) :
    outputsOf? E ls = some [] := by
  induction ls with
  | nil =>
      rfl
  | cons line ls ih =>
      obtain ⟨hline, hls⟩ := List.forall_mem_cons.mp h
      rw [outputsOf?_cons hline, ih hls]
      rfl

/-- What stands before the quoted name of a file that output is sent to. -/
structure OpensFile (E : Bindings) (before : String) : Prop where
  noRemark : ∀ rest, isRemark (before.toList ++ rest) = false
  opens : ∃ expanded : String, Expands E before.toList expanded.toList
    ∧ ∀ rest, outputsFrom .bare (expanded.toList ++ rest) = outputsFrom (.file []) rest

variable {before : String}

/-- What a name before a quote is expanded to. -/
structure NamesFile (E : Bindings) (file target : String) : Prop where
  expands : expand? E (file ++ "\"") = some (target ++ "\"")
  noQuote : '"' ∉ target.toList

/-- A name without quotes and percent signs stands for itself. -/
theorem namesFile_self (hquote : '"' ∉ file.toList) (hpercent : '%' ∉ file.toList) :
    NamesFile E file file where
  expands := by
    apply expand?_of_expands
    apply Expands.chars
    simp [hpercent]
  noQuote := hquote

variable {target : String}

theorem OpensFile.lineOutputs?_eq (h : OpensFile E before) (hfile : NamesFile E file target) :
    lineOutputs? E (before ++ file ++ "\"") = some [target] := by
  obtain ⟨start, hexpands, hopens⟩ := h.opens
  have hremark : isRemark (before ++ file ++ "\"").toList = false := by
    rw [String.append_assoc, String.toList_append]
    exact h.noRemark _
  have hline : expand? E (before ++ file ++ "\"") = some (start ++ (target ++ "\"")) := by
    obtain ⟨expanded, hexpanded, htarget⟩ := Option.map_eq_some_iff.mp hfile.expands
    rw [expand?, String.append_assoc, String.toList_append, hexpands, hexpanded, ← htarget]
    apply congrArg some
    apply String.toList_injective
    simp
  have hends : (target ++ "\"").toList = target.toList ++ '"' :: [] := by
    simp
  rw [lineOutputs?_of_expand? hremark hline, String.toList_append, hopens, hends,
    outputsFrom_file hfile.noQuote]
  simp [outputsFrom]

example : lineOutputs? unset "echo \">\" 100%% > \"a b\" >> c" = some ["a b", "c"] := by
  decide

/-- A name with a percent sign is not that of the first file where no variable is set. -/
theorem OpensFile.exists_ne_of_percent (h : OpensFile unset before) (hpercent : '%' ∈ file.toList)
    (hline : lineOutputs? unset (before ++ file ++ "\"") = some files) :
    ∃ first more, files = first :: more ∧ first ≠ file := by
  obtain ⟨start, hexpands, hopens⟩ := h.opens
  rw [lineOutputs?, expand?, String.append_assoc, String.toList_append, h.noRemark,
    hexpands] at hline
  simp only [Bool.false_eq_true, if_false, Option.bind_eq_some_iff, Option.map_eq_some_iff] at hline
  obtain ⟨_, ⟨_, ⟨expanded, hexpanded, rfl⟩, rfl⟩, hfiles⟩ := hline
  rw [String.toList_ofList, hopens] at hfiles
  obtain ⟨name, rest, more, rfl, rfl⟩ := exists_of_outputsFrom_file hfiles
  refine ⟨_, more, rfl, ?_⟩
  have hshort := length_lt_of_percent (by simp [hpercent]) hexpanded
  rintro rfl
  simp at hshort

end EnvLayers.Batch
