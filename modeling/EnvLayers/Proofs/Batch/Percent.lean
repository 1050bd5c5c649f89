import EnvLayers.Proofs.Shell.Token
import EnvLayers.Proofs.Text.Cut
import EnvLayers.Text.Lines

/-
Module: EnvLayers.Proofs.Batch.Percent
Purpose: The lines of a batch file, and the expansion of percent signs in each of them. It goes from
  left to right and does not read again what it yields: two percent signs stand for one, a name
  between two stands for the value of the variable, and one without a partner vanishes. Arguments of
  the batch file and modifiers of references are not covered: a text with them has no expansion.
Main exports: Batch.lines, Batch.expandFrom, Batch.expand?, Batch.Expands, Batch.Expands.reference,
  Batch.lines_render, Batch.expand?_of_expands, Batch.length_lt_of_percent
-/

namespace EnvLayers.Batch

open Text

/-- The values of the variables that are set. -/
abbrev Bindings := String → Option String

/-! ### Lines -/

/-- Without an empty part at the end. -/
def dropEmptyEnd (parts : List (List Char)) : List (List Char) :=
  if parts.getLast? = some [] then parts.dropLast else parts

/-- A line without the carriage return before its end. -/
def dropReturn (line : List Char) : String := String.ofList ((dropFinal '\r' line).getD line)

/-- The lines of a text. What follows the last line end is a line if it is not empty. -/
def lines (text : String) : List String :=
  (dropEmptyEnd (pieces '\n' text.toList)).map dropReturn

theorem dropEmptyEnd_append (parts : List (List Char)) {more : List (List Char)} (h : more ≠ []) :
    dropEmptyEnd (parts ++ more) = parts ++ dropEmptyEnd more := by
  unfold dropEmptyEnd
  rw [List.getLast?_append_of_ne_nil _ h, List.dropLast_append_of_ne_nil h]
  split
  · rfl
  · rfl

/-- A text that ends its last line and a text after it have the lines of both. -/
theorem lines_append (text more : String) :
    lines (text ++ "\n" ++ more) = lines (text ++ "\n") ++ lines more := by
  have hends : ∀ cs, dropEmptyEnd (pieces '\n' (text.toList ++ '\n' :: cs))
      = pieces '\n' text.toList ++ dropEmptyEnd (pieces '\n' cs) := by
    intro cs
    rw [pieces_append, dropEmptyEnd_append _ (pieces_ne_nil _ _)]
  have hempty : dropEmptyEnd (pieces '\n' []) = [] := rfl
  have htext := hends []
  have hboth := hends more.toList
  rw [hempty, List.append_nil] at htext
  unfold lines
  simp only [String.toList_append, List.append_assoc]
  have hbreak : "\n".toList = ['\n'] := rfl
  rw [hbreak, List.singleton_append, hboth, htext, List.map_append]

theorem lines_line {line : String} (h : '\n' ∉ line.toList) : lines (line ++ "\r\n") = [line] := by
  have hline : (line ++ "\r\n").toList = (line.toList ++ ['\r']) ++ '\n' :: [] := by
    simp
  have hreturn : '\n' ∉ line.toList ++ ['\r'] := by
    simp [h]
  have hpieces : pieces '\n' (line ++ "\r\n").toList = [line.toList ++ ['\r'], []] := by
    rw [hline, pieces_append, pieces_of_not_mem hreturn]
    rfl
  rw [lines, hpieces]
  simp [dropEmptyEnd, dropReturn, dropFinal_append]

theorem lines_render {ls : List String} (h : ∀ line ∈ ls, '\n' ∉ line.toList) :
    lines (Lines.render "\r\n" ls) = ls := by
  induction ls with
  | nil =>
      rfl
  | cons line ls ih =>
      obtain ⟨hline, hrest⟩ := List.forall_mem_cons.mp h
      have hfirst := lines_append (line ++ "\r") (Lines.render "\r\n" ls)
      have htext : Lines.render "\r\n" (line :: ls)
          = line ++ "\r" ++ "\n" ++ Lines.render "\r\n" ls := by
        simp [Lines.render, String.append_assoc]
      have hend : line ++ "\r" ++ "\n" = line ++ "\r\n" := by
        simp [String.append_assoc]
      rw [htext, hfirst, ih hrest, hend, lines_line hline, List.singleton_append]

/-- Lines that are rendered behind others are lines of the text. -/
theorem lines_render_append (before : List String) {after : List String}
    (h : ∀ line ∈ after, '\n' ∉ line.toList) :
    lines (Lines.render "\r\n" (before ++ after))
      = lines (Lines.render "\r\n" before) ++ after := by
  rcases List.eq_nil_or_concat before with rfl | ⟨front, last, rfl⟩
  · exact lines_render h
  · have hcut := lines_append (Lines.render "\r\n" front ++ last ++ "\r")
      (Lines.render "\r\n" after)
    rw [lines_render h] at hcut
    have hends : Lines.render "\r\n" (front.concat last)
        = Lines.render "\r\n" front ++ last ++ "\r" ++ "\n" := by
      simp [Lines.render, String.append_assoc]
    have hall : Lines.render "\r\n" (front.concat last ++ after)
        = Lines.render "\r\n" (front.concat last) ++ Lines.render "\r\n" after := by
      simp [Lines.render, String.append_assoc]
    rw [hall, hends, hcut]

/-! ### Percent signs -/

/-- Where the next character is read: in the text, after a percent sign, or in the name of a
variable, with what is read of it. -/
inductive Place where
  | text
  | percent
  | name (read : List Char)
deriving Repr, DecidableEq

/-- The characters that make a percent sign an argument of the batch file, and the one that starts a
modifier. -/
def isUncovered (c : Char) : Bool := c.isDigit || c == '*' || c == '~' || c == ':'

theorem isUncovered_of_isNameStart {c : Char} (h : Graph.isNameStart c) :
    isUncovered c = false := by
  have hdigit : c.isDigit = false := by
    unfold Graph.isNameStart at h
    rcases Bool.or_eq_true_iff.mp h with halpha | hunderscore
    · apply Bool.eq_false_iff.mpr
      intro hdigit
      have hdigitCode : c.toNat ≤ 57 := of_decide_eq_true (Bool.and_eq_true_iff.mp hdigit).2
      rcases Bool.or_eq_true_iff.mp halpha with hupper | hlower
      · have hcode : 65 ≤ c.toNat := (of_decide_eq_true hupper).1
        omega
      · have hcode : 97 ≤ c.toNat := of_decide_eq_true (Bool.and_eq_true_iff.mp hlower).1
        omega
    · rw [beq_iff_eq.mp hunderscore]
      rfl
  have hne : ∀ d, Graph.isNameStart d = false → c ≠ d := by
    rintro d hd rfl
    rw [h] at hd
    cases hd
  simp [isUncovered, hdigit, hne '*' rfl, hne '~' rfl, hne ':' rfl]

/-- What a reference yields. A variable that is not set yields the empty text. -/
def valueOf (E : Bindings) (name : List Char) : List Char :=
  ((E (String.ofList name)).getD "").toList

/-- A text with its percent signs expanded, from a place on. -/
def expandFrom (E : Bindings) : Place → List Char → Option (List Char)
  | .text, [] => some []
  | .text, c :: cs =>
    if c = '%' then expandFrom E .percent cs else (expandFrom E .text cs).map (c :: ·)
  | .percent, [] => some []
  | .percent, c :: cs =>
    if c = '%' then (expandFrom E .text cs).map ('%' :: ·)
    else if isUncovered c then none
    else expandFrom E (.name [c]) cs
  | .name read, [] => some read
  | .name read, c :: cs =>
    if c = '%' then (expandFrom E .text cs).map (valueOf E read ++ ·)
    else if c = ':' then none
    else expandFrom E (.name (read ++ [c])) cs

/-- A line with its percent signs expanded. -/
def expand? (E : Bindings) (line : String) : Option String :=
  (expandFrom E .text line.toList).map String.ofList

/-! ### Parts of lines -/

variable {E : Bindings} {cs out : List Char}

/-- A name without a modifier is read up to the next percent sign. -/
theorem name_end (hpercent : '%' ∉ cs) (hcolon : ':' ∉ cs) (read rest : List Char) :
    expandFrom E (.name read) (cs ++ '%' :: rest)
      = (expandFrom E .text rest).map (valueOf E (read ++ cs) ++ ·) := by
  induction cs generalizing read with
  | nil =>
      simp [expandFrom]
  | cons c cs ih =>
      obtain ⟨hc, hcs⟩ := not_or.mp (mt List.mem_cons.mpr hpercent)
      obtain ⟨hd, hds⟩ := not_or.mp (mt List.mem_cons.mpr hcolon)
      rw [List.cons_append, expandFrom, if_neg (Ne.symm hc), if_neg (Ne.symm hd), ih hcs hds,
        List.append_assoc, List.singleton_append]

/-- Before any text, the characters are expanded on their own. -/
def Expands (E : Bindings) (cs out : List Char) : Prop :=
  ∀ rest, expandFrom E .text (cs ++ rest) = (expandFrom E .text rest).map (out ++ ·)

namespace Expands

theorem nil : Expands E [] [] := by
  intro rest
  simp

theorem append {ds more : List Char} (h : Expands E cs out) (h' : Expands E ds more) :
    Expands E (cs ++ ds) (out ++ more) := by
  intro rest
  rw [List.append_assoc, h, h', Option.map_map]
  congr 1
  funext text
  exact (List.append_assoc out more text).symm

theorem char {c : Char} (h : c ≠ '%') : Expands E [c] [c] := by
  intro rest
  simp [expandFrom, h]

theorem chars (h : '%' ∉ cs) : Expands E cs cs := by
  induction cs with
  | nil =>
      exact nil
  | cons c cs ih =>
      obtain ⟨hc, hcs⟩ := not_or.mp (mt List.mem_cons.mpr h)
      exact (char (Ne.symm hc)).append (ih hcs)

theorem doubled : Expands E ['%', '%'] ['%'] := by
  intro rest
  simp [expandFrom]

/-- A reference yields the value of the variable. -/
theorem reference {name : String} (h : Graph.isVariableName name) :
    Expands E ('%' :: (name.toList ++ ['%'])) ((E name).getD "").toList := by
  intro rest
  have hsign : '%' ∉ name.toList := Shell.not_mem_name h rfl
  have hmodifier : ':' ∉ name.toList := Shell.not_mem_name h rfl
  have hvalue : ((E name).getD "").toList = valueOf E name.toList := by
    rw [valueOf, String.ofList_toList]
  rw [hvalue]
  unfold Graph.isVariableName at h
  cases hname : name.toList with
  | nil =>
      simp [hname] at h
  | cons c cs =>
      simp only [hname, Bool.and_eq_true] at h
      obtain ⟨hc, hpercent⟩ := not_or.mp (mt List.mem_cons.mpr (hname ▸ hsign))
      obtain ⟨-, hcolon⟩ := not_or.mp (mt List.mem_cons.mpr (hname ▸ hmodifier))
      have hopen : expandFrom E .text ('%' :: (c :: cs ++ ['%']) ++ rest)
          = expandFrom E (.name [c]) (cs ++ '%' :: rest) := by
        simp [expandFrom, Ne.symm hc, isUncovered_of_isNameStart h.1]
      rw [hopen, name_end hpercent hcolon, List.singleton_append]

end Expands

theorem expand?_of_expands {line expanded : String} (h : Expands E line.toList expanded.toList) :
    expand? E line = some expanded := by
  have hline := h []
  rw [List.append_nil] at hline
  simp [expand?, hline, expandFrom]

example : expand? (fun name => if name = "A" then some "%B%" else none) "100%% %A%%B%"
    = some "100% %B%" := by
  decide

/-! ### Where no variable is set -/

/-- An environment without variables. -/
def unset : Bindings := fun _ => none

/-- What is read and not yet given out at a place. -/
def Place.pending : Place → List Char
  | .name read => read
  | _ => []

theorem length_expandFrom_le {place : Place} (h : expandFrom unset place cs = some out) :
    out.length ≤ place.pending.length + cs.length := by
  have hvalue : ∀ name, valueOf unset name = [] := fun _ => rfl
  induction cs generalizing place out with
  | nil =>
      cases place with
      | text =>
          cases h
          exact le_rfl
      | percent =>
          cases h
          exact le_rfl
      | name read =>
          cases h
          exact le_rfl
  | cons c cs ih =>
      rw [List.length_cons]
      cases place with
      | text =>
          rw [expandFrom] at h
          split at h
          · have hrest := ih h
            simp only [Place.pending, List.length_nil] at hrest ⊢
            omega
          · obtain ⟨rest, hrest, rfl⟩ := Option.map_eq_some_iff.mp h
            have hle := ih hrest
            simp only [Place.pending, List.length_nil, List.length_cons] at hle ⊢
            omega
      | percent =>
          rw [expandFrom] at h
          split at h
          · obtain ⟨rest, hrest, rfl⟩ := Option.map_eq_some_iff.mp h
            have hle := ih hrest
            simp only [Place.pending, List.length_nil, List.length_cons] at hle ⊢
            omega
          · split at h
            · cases h
            · have hrest := ih h
              simp only [Place.pending, List.length_nil, List.length_singleton] at hrest ⊢
              omega
      | name read =>
          rw [expandFrom] at h
          split at h
          · obtain ⟨rest, hrest, rfl⟩ := Option.map_eq_some_iff.mp h
            have hle := ih hrest
            simp only [Place.pending, List.length_nil, hvalue, List.nil_append] at hle ⊢
            omega
          · split at h
            · cases h
            · have hrest := ih h
              simp only [Place.pending, List.length_append, List.length_singleton] at hrest ⊢
              omega

/-- A text with a percent sign gets shorter where no variable is set. -/
theorem length_lt_of_percent (hpercent : '%' ∈ cs) (h : expandFrom unset .text cs = some out) :
    out.length < cs.length := by
  induction cs generalizing out with
  | nil =>
      cases hpercent
  | cons c cs ih =>
      rw [expandFrom] at h
      split at h
      · have hle := length_expandFrom_le h
        simp only [Place.pending, List.length_nil, List.length_cons] at hle ⊢
        omega
      · next hc =>
          obtain ⟨rest, hrest, rfl⟩ := Option.map_eq_some_iff.mp h
          have hlt := ih ((List.mem_cons.mp hpercent).resolve_left (Ne.symm hc)) hrest
          simpa using hlt

end EnvLayers.Batch
