import EnvLayers.Proofs.Profile.Definition
import EnvLayers.Proofs.Profile.Refusal
import EnvLayers.Proofs.Text.Replace

/-
Module: EnvLayers.Proofs.Profile.Directory
Purpose: Reading a profile from a file against reading its text. The directory of the file is put in
  place of its name before the text is cut into lines. Where the name stands in values and includes
  only, that is the same as putting it into the values and the includes that the text gives, except
  that a directory which ends with a parenthesis closes an include that is left open at its name.
Main exports: Profile.expandDir, Op.expandDir, OpGroups.expandDir, Profile.IsDirectory,
  Profile.NamedInValue, Profile.ClosesInclude, Line.definition?_expandDir, Line.include?_expandDir,
  Profile.ExpandsTo, Profile.ReadAlike, Profile.readLines_expandDir, Profile.parseFile_expands,
  Profile.directory_closes_include
-/

namespace EnvLayers

open Text

namespace Profile

/-! ### The directory in place of its name -/

/-- A text with a directory in place of the name that stands for it. -/
def expandDir (dir : String) (cs : List Char) : List Char :=
  replaceAll directoryName.toList dir.toList cs

/-- The same for a string. -/
def expandText (dir s : String) : String := String.ofList (expandDir dir s.toList)

end Profile

/-- An operation with the directory in its value. -/
def Op.expandDir (dir : String) : Op → Op
  | .put place name value isPath separator =>
    .put place name (Profile.expandText dir value) isPath separator
  | .unset name => .unset name

/-- Groups with the directory in the values of their operations. -/
def OpGroups.expandDir (dir : String) (g : OpGroups) : OpGroups :=
  ⟨g.groups.map fun entry => (entry.1, entry.2.map (Op.expandDir dir))⟩

namespace Profile

/-- An absolute path on one line that does not end with a blank. -/
structure IsDirectory (dir : String) : Prop where
  absolute : dir.toList.head? = some '/'
  oneLine : '\n' ∉ dir.toList
  noBlankEnd : NoBlankEnd dir.toList

/-- The name of the directory does not occur to the left of the first equals sign. -/
def NamedInValue (line : List Char) : Prop :=
  ¬ directoryName.toList <:+: line.takeWhile (· ≠ '=')

/-- The directory ends with a parenthesis, and the line is an include that is left open at the name
of the directory. -/
structure ClosesInclude (dir : String) (line : List Char) : Prop where
  opened : "include(".toList <+: line
  named : directoryName.toList <:+ line
  closes : dir.toList.getLast? = some ')'

section Expanding

variable {dir : String} {line before after cs : List Char} {c : Char}

theorem directoryName_ne_nil : directoryName.toList ≠ [] := by decide

theorem noBlank_directoryName : ∀ c ∈ directoryName.toList, isBlank c = false := by
  have hall : directoryName.toList.all (!isBlank ·) = true := rfl
  simpa using hall

theorem IsDirectory.exists_cons (h : IsDirectory dir) : ∃ rest, dir.toList = '/' :: rest :=
  List.head?_eq_some_iff.mp h.absolute

theorem IsDirectory.ne_nil (h : IsDirectory dir) : dir.toList ≠ [] := by
  obtain ⟨rest, hrest⟩ := h.exists_cons
  simp [hrest]

theorem IsDirectory.noBlankStart (h : IsDirectory dir) : NoBlankStart dir.toList := by
  intro c hc
  rw [h.absolute] at hc
  cases hc
  rfl

/-- A text without the name stays. -/
theorem expandDir_eq_self (h : ¬ directoryName.toList <:+: cs) : expandDir dir cs = cs :=
  replaceAll_eq_self directoryName_ne_nil h

theorem expandDir_of_not_mem (h : '$' ∉ cs) : expandDir dir cs = cs := by
  apply expandDir_eq_self
  intro hinside
  exact h (hinside.subset List.mem_cons_self)

/-- The texts around a character that is not in the name are expanded on their own. -/
theorem expandDir_separated (h : c ∉ directoryName.toList) (before after : List Char) :
    expandDir dir (before ++ c :: after) = expandDir dir before ++ c :: expandDir dir after :=
  replaceAll_separated directoryName_ne_nil h before after

/-- The directory shows wherever its name occurred. -/
theorem expandDir_occurrence (before after : List Char) :
    expandDir dir (before ++ directoryName.toList ++ after)
      = expandDir dir before ++ dir.toList ++ expandDir dir after :=
  replaceAll_occurrence (by decide) before after

theorem trim_expandDir (h : IsDirectory dir) (cs : List Char) :
    trim (expandDir dir cs) = expandDir dir (trim cs) :=
  trim_replaceAll directoryName_ne_nil h.ne_nil noBlank_directoryName h.noBlankStart h.noBlankEnd cs

theorem expandDir_eq_nil_iff (h : IsDirectory dir) : expandDir dir cs = [] ↔ cs = [] :=
  replaceAll_eq_nil_iff directoryName_ne_nil h.ne_nil

theorem dropPrefix_expandDir (h : IsDirectory dir) {start : List Char} (hname : '$' ∉ start)
    (hdir : '/' ∉ start) (cs : List Char) :
    dropPrefix start (expandDir dir cs) = (dropPrefix start cs).map (expandDir dir) := by
  obtain ⟨rest, hrest⟩ := h.exists_cons
  have hdrop := @dropPrefix_replaceAll '$' '/' "PROFILE_DIR".toList rest start hname hdir cs
  rw [← hrest] at hdrop
  exact hdrop

/-- A text starts with the same character as before, or with the slash of the directory where it
started with its name. -/
theorem expandDir_cases (h : IsDirectory dir) (cs : List Char) :
    (∃ rest more, cs = '$' :: rest ∧ expandDir dir cs = '/' :: more)
      ∨ cs = [] ∧ expandDir dir cs = []
      ∨ ∃ c rest, cs = c :: rest ∧ expandDir dir cs = c :: expandDir dir rest := by
  by_cases hoccurs : directoryName.toList <+: cs
  · obtain ⟨rest, rfl⟩ := hoccurs
    obtain ⟨more, hmore⟩ := h.exists_cons
    left
    refine ⟨"PROFILE_DIR".toList ++ rest, more ++ expandDir dir rest, rfl, ?_⟩
    rw [expandDir, replaceAll_append_old directoryName_ne_nil, expandDir, hmore, List.cons_append]
  · right
    cases cs with
    | nil =>
        exact .inl ⟨rfl, rfl⟩
    | cons c rest =>
        exact .inr ⟨c, rest, rfl, replaceAll_cons hoccurs⟩

/-- Where a text with the directory has no slash, the name did not occur. -/
theorem expandDir_eq_self_of_slash (h : IsDirectory dir) (hslash : '/' ∉ expandDir dir cs) :
    expandDir dir cs = cs := by
  apply expandDir_eq_self
  rintro ⟨before, after, rfl⟩
  obtain ⟨rest, hrest⟩ := h.exists_cons
  apply hslash
  rw [expandDir_occurrence, hrest]
  simp

/-! ### Lines -/

theorem isIgnored_expandDir (h : IsDirectory dir) (line : List Char) :
    isIgnored (expandDir dir line) = isIgnored line := by
  rcases expandDir_cases h line with ⟨rest, more, hline, hexpanded⟩ | ⟨hline, hexpanded⟩
    | ⟨c, rest, hline, hexpanded⟩
  · rw [hexpanded, hline]
    rfl
  · rw [hexpanded, hline]
  · rw [hexpanded, hline]
    rfl

end Expanding

end Profile

namespace Line

open Profile (expandDir expandText IsDirectory directoryName NamedInValue ClosesInclude)

variable {dir : String} {line cs : List Char} {c : Char}

/-- A header is made of brackets, blanks and the characters of names. -/
theorem mem_of_section? {name : String} (h : section? line = some name) (hc : c ∈ line) :
    c = '[' ∨ c = ']' ∨ isBlank c = true ∨ isSectionStart c = true ∨ isSectionRest c = true := by
  unfold section? at h
  split at h
  · next rest =>
      obtain ⟨inner, hinner, hname⟩ := Option.bind_eq_some_iff.mp h
      have hrest := dropFinal_eq_some hinner
      subst hrest
      rcases List.mem_cons.mp hc with rfl | hc
      · exact .inl rfl
      · right
        rcases List.mem_append.mp hc with hmem | hlast
        · right
          rcases mem_trim_or_isBlank hmem with htrim | hblank
          · split at hname
            · cases hname
            · next first more hparts =>
                split at hname
                · next hvalid =>
                    rw [hparts] at htrim
                    simp only [Bool.and_eq_true, List.all_eq_true] at hvalid
                    rcases List.mem_cons.mp htrim with rfl | hmore
                    · exact .inr (.inl hvalid.1)
                    · exact .inr (.inr (hvalid.2 c hmore))
                · cases hname
          · exact .inl hblank
        · exact .inl (List.mem_singleton.mp hlast)
  · cases h

theorem not_mem_of_section? {name : String} (h : section? line = some name) :
    '$' ∉ line ∧ '/' ∉ line := by
  have hnone : ∀ c : Char, (c == '[' || c == ']' || isBlank c || isSectionStart c
      || isSectionRest c) = false → c ∉ line := by
    intro c hc hmem
    have hkind := mem_of_section? h hmem
    simp only [Bool.or_eq_false_iff, beq_eq_false_iff_ne] at hc
    obtain ⟨⟨⟨⟨hopen, hclose⟩, hblank⟩, hstart⟩, hrest⟩ := hc
    simp [hopen, hclose, hblank, hstart, hrest] at hkind
  exact ⟨hnone '$' (by decide), hnone '/' (by decide)⟩

/-- The directory neither makes nor changes a header: no header holds a slash, or the name. -/
theorem section?_expandDir (h : IsDirectory dir) (line : List Char) :
    Line.section? (expandDir dir line) = Line.section? line := by
  cases hexpanded : section? (expandDir dir line) with
  | some name =>
      rw [← hexpanded, Profile.expandDir_eq_self_of_slash h (not_mem_of_section? hexpanded).2]
  | none =>
      cases hline : section? line with
      | none =>
          rfl
      | some name =>
          rw [Profile.expandDir_of_not_mem (not_mem_of_section? hline).1, hline] at hexpanded
          cases hexpanded

/-! ### Definitions -/

theorem putOp_expandDir (h : IsDirectory dir) (place : Placement) (name : String)
    (right : List Char) :
    putOp place name (expandDir dir right) = (putOp place name right).expandDir dir := by
  have hmark := @Profile.dropPrefix_expandDir dir h pathMark (by decide) (by decide) (trim right)
  unfold putOp
  dsimp only
  rw [Profile.trim_expandDir h, ← pathMark, hmark]
  cases dropPrefix pathMark (trim right) with
  | none =>
      simp [Op.expandDir, expandText]
  | some rest =>
      simp [Op.expandDir, expandText]

theorem opOf_expandDir (h : IsDirectory dir) (appending : Bool) (name : String)
    (right : List Char) :
    opOf appending name (expandDir dir right) = (opOf appending name right).expandDir dir := by
  cases appending with
  | true =>
      exact putOp_expandDir h .append name right
  | false =>
      have hdefine := putOp_expandDir h .define name right
      rcases Profile.expandDir_cases h right with ⟨rest, more, hright, hexpanded⟩
        | ⟨hright, hexpanded⟩ | ⟨c, rest, hright, hexpanded⟩
      · rw [hexpanded, hright] at hdefine ⊢
        exact hdefine
      · rw [hexpanded, hright] at hdefine ⊢
        exact hdefine
      · rw [hexpanded, hright] at hdefine ⊢
        by_cases hunset : c = '!'
        · rw [hunset]
          rfl
        · by_cases hplus : c = '+'
          · rw [hplus]
            exact putOp_expandDir h .prepend name rest
          · simpa [opOf, hunset, hplus] using hdefine

theorem cutFirst_eq_none (h : cutFirst c cs = none) : c ∉ cs := by
  intro hmem
  obtain ⟨before, after, rfl, hbefore⟩ := List.eq_append_cons_of_mem hmem
  rw [cutFirst_of_not_mem hbefore] at h
  cases h

/-- With the name in the value only, a line defines the same with the directory in the value. -/
theorem definition?_expandDir (h : IsDirectory dir) (hvalue : NamedInValue line) :
    definition? (expandDir dir line)
      = (definition? line).map fun definition => (definition.1, definition.2.expandDir dir) := by
  cases hcut : cutFirst '=' line with
  | none =>
      have hequals := cutFirst_eq_none hcut
      have hall : line.takeWhile (· ≠ '=') = line := by
        rw [List.takeWhile_eq_self_iff]
        intro c hc
        simp only [decide_eq_true_eq]
        rintro rfl
        exact hequals hc
      have hself : expandDir dir line = line := by
        apply Profile.expandDir_eq_self
        rwa [NamedInValue, hall] at hvalue
      simp [hself, definition?, hcut]
  | some parts =>
      obtain ⟨left, right⟩ := parts
      obtain ⟨rfl, hequals⟩ := cutFirst_eq_some hcut
      have hleft : (left ++ '=' :: right).takeWhile (· ≠ '=') = left := by
        have hall : ∀ c ∈ left, decide (c ≠ '=') = true := by
          intro c hc
          simp only [decide_eq_true_eq]
          rintro rfl
          exact hequals hc
        rw [List.takeWhile_append_of_pos hall]
        simp
      have hself : expandDir dir left = left := by
        apply Profile.expandDir_eq_self
        rwa [NamedInValue, hleft] at hvalue
      have hline : expandDir dir (left ++ '=' :: right) = left ++ '=' :: expandDir dir right := by
        rw [Profile.expandDir_separated (by decide), hself]
      rw [hline, definition?, definition?, cutFirst_of_not_mem hequals, cutFirst_of_not_mem hequals]
      simp only [Option.bind_eq_bind, Option.bind_some, opOf_expandDir h]
      cases dropFinal '+' left with
      | none =>
          cases subject? left <;> rfl
      | some part =>
          cases subject? part <;> rfl

/-! ### Includes -/

/-- A final character stays, and no other text gets it but one that ends with the name of a
directory with that end. -/
theorem dropFinal_expandDir (h : IsDirectory dir) (hname : c ∉ directoryName.toList)
    (hopen : ¬ (directoryName.toList <:+ cs ∧ dir.toList.getLast? = some c)) :
    dropFinal c (expandDir dir cs) = (dropFinal c cs).map (expandDir dir) := by
  unfold dropFinal
  by_cases hlast : cs.getLast? = some c
  · obtain ⟨before, rfl⟩ := List.getLast?_eq_some_iff.mp hlast
    have hcut := @Profile.expandDir_separated dir c hname before []
    have hnil : expandDir dir [] = [] := rfl
    rw [hnil] at hcut
    simp [hcut]
  · have hnone : (expandDir dir cs).getLast? ≠ some c := by
      intro hexpanded
      rcases getLast?_replaceAll Profile.directoryName_ne_nil h.ne_nil hexpanded with hmem | hclosed
      · exact hlast hmem
      · exact hopen hclosed
    rw [if_neg hlast, if_neg hnone]
    rfl

theorem includeTarget_expandDir (h : IsDirectory dir) (inner : List Char) :
    includeTarget (expandDir dir inner) = (includeTarget inner).map (expandText dir) := by
  unfold includeTarget
  rw [Profile.trim_expandDir h]
  cases htrim : trim inner with
  | nil =>
      -- a text of blanks does not hold the name
      have hblank : ∀ c ∈ inner, isBlank c = true := by
        intro c hc
        rcases mem_trim_or_isBlank hc with hmem | hblank
        · rw [htrim] at hmem
          cases hmem
        · exact hblank
      have hself : ∀ cs : List Char, (∀ c ∈ cs, isBlank c = true) → expandDir dir cs = cs := by
        intro cs hcs
        apply Profile.expandDir_of_not_mem
        intro hmem
        cases hcs _ hmem
      rw [hself inner hblank, hself [] nofun]
      dsimp only
      cases hlast : inner.getLast? with
      | none =>
          rfl
      | some c =>
          have hc : expandDir dir (String.singleton c).toList = (String.singleton c).toList := by
            apply hself
            intro d hd
            rw [String.toList_singleton, List.mem_singleton] at hd
            rw [hd]
            exact hblank c (List.mem_of_getLast? hlast)
          rw [Option.map_some, Option.map_some, expandText, hc, String.ofList_toList]
  | cons c rest =>
      cases hexpanded : expandDir dir (c :: rest) with
      | nil =>
          cases (Profile.expandDir_eq_nil_iff h).mp hexpanded
      | cons d more =>
          simp [expandText, hexpanded]

/-- What an open include holds ends with the name of the directory if the whole line does. -/
theorem suffix_of_opened {rest : List Char}
    (h : directoryName.toList <:+ "include(".toList ++ rest) : directoryName.toList <:+ rest := by
  by_contra hshort
  have hparts : "include(".toList ++ rest = "include".toList ++ '(' :: rest := rfl
  rw [hparts] at h
  rcases Nat.lt_or_ge rest.length directoryName.toList.length with hlt | hle
  · have hover : '(' :: rest <:+ directoryName.toList :=
      List.suffix_of_suffix_length_le (List.suffix_append _ _) h hlt
    have hmem := hover.subset List.mem_cons_self
    revert hmem
    decide
  · apply hshort
    apply List.suffix_of_suffix_length_le h _ hle
    exact (List.suffix_cons '(' rest).trans (List.suffix_append _ _)

/-- A line is the same include with the directory in its target, unless the directory closes it. -/
theorem include?_expandDir (h : IsDirectory dir) (hopen : ¬ ClosesInclude dir line) :
    include? (expandDir dir line) = (include? line).map (expandText dir) := by
  unfold include?
  rw [Profile.dropPrefix_expandDir h (by decide) (by decide)]
  cases hrest : dropPrefix "include(".toList line with
  | none =>
      rfl
  | some rest =>
      have hline := List.isPrefixOf?_eq_some_iff_append_eq.mp hrest
      have hrestOpen : ¬ (directoryName.toList <:+ rest ∧ dir.toList.getLast? = some ')') := by
        rintro ⟨hnamed, hcloses⟩
        refine hopen ⟨⟨rest, hline⟩, ?_, hcloses⟩
        rw [← hline]
        exact hnamed.trans (List.suffix_append _ _)
      simp only [Option.map_some, Option.bind_some]
      rw [dropFinal_expandDir h (by decide) hrestOpen]
      cases dropFinal ')' rest with
      | none =>
          rfl
      | some inner =>
          exact includeTarget_expandDir h inner

/-- A line that the directory closes is an include with the directory only. -/
theorem include?_of_closesInclude (h : IsDirectory dir) (hclosed : ClosesInclude dir line) :
    include? line = none ∧ (include? (expandDir dir line)).isSome := by
  obtain ⟨⟨rest, rfl⟩, hnamed, hcloses⟩ := hclosed
  obtain ⟨before, rfl⟩ := suffix_of_opened hnamed
  obtain ⟨start, hdir⟩ := List.getLast?_eq_some_iff.mp hcloses
  have hstart : ∀ rest, dropPrefix "include(".toList ("include(".toList ++ rest) = some rest :=
    fun rest => List.isPrefixOf?_eq_some_iff_append_eq.mpr rfl
  constructor
  · have hlast : dropFinal ')' (before ++ directoryName.toList) = none := by
      have hname : directoryName.toList.getLast? = some 'R' := rfl
      simp [dropFinal, List.getLast?_append, hname]
    rw [include?, hstart, Option.bind_some, hlast]
    rfl
  · have hexpanded : expandDir dir (before ++ directoryName.toList)
        = (expandDir dir before ++ start) ++ [')'] := by
      have hoccurs := @Profile.expandDir_occurrence dir before []
      rw [List.append_nil] at hoccurs
      rw [hoccurs, hdir]
      simp [expandDir]
    have hne : expandDir dir before ++ start ≠ [] := by
      obtain ⟨more, hmore⟩ := h.exists_cons
      rw [hdir] at hmore
      cases start with
      | nil =>
          cases hmore
      | cons c start =>
          simp
    rw [include?, Profile.dropPrefix_expandDir h (by decide) (by decide), hstart, Option.map_some,
      Option.bind_some, hexpanded, dropFinal_append, Option.bind_some, includeTarget]
    split
    · rw [Option.isSome_map, List.getLast?_eq_some_getLast hne]
      rfl
    · rfl

/-- No include gets lost. -/
theorem length_filterMap_include?_le (h : IsDirectory dir) (lines : List (List Char)) :
    (lines.filterMap include?).length
      ≤ ((lines.map (expandDir dir)).filterMap include?).length := by
  induction lines with
  | nil =>
      exact le_rfl
  | cons line lines ih =>
      by_cases hclosed : ClosesInclude dir line
      · obtain ⟨hnone, hsome⟩ := include?_of_closesInclude h hclosed
        obtain ⟨target, htarget⟩ := Option.isSome_iff_exists.mp hsome
        simp only [List.map_cons, List.filterMap_cons, hnone, htarget, List.length_cons]
        exact Nat.le_succ_of_le ih
      · rw [List.map_cons, List.filterMap_cons, List.filterMap_cons,
          include?_expandDir h hclosed]
        cases include? line with
        | none => exact ih
        | some target => exact Nat.succ_le_succ ih

/-- The directory goes into the targets of the includes exactly if it closes none. -/
theorem filterMap_include?_expandDir (h : IsDirectory dir) (lines : List (List Char)) :
    (lines.map (expandDir dir)).filterMap include?
        = (lines.filterMap include?).map (expandText dir)
      ↔ ∀ line ∈ lines, ¬ ClosesInclude dir line := by
  induction lines with
  | nil =>
      simp
  | cons line lines ih =>
      by_cases hclosed : ClosesInclude dir line
      · obtain ⟨hnone, hsome⟩ := include?_of_closesInclude h hclosed
        obtain ⟨target, htarget⟩ := Option.isSome_iff_exists.mp hsome
        constructor
        · intro heq
          have hlong := congrArg List.length heq
          have hshort := length_filterMap_include?_le h lines
          simp only [List.map_cons, List.filterMap_cons, hnone, htarget, List.length_cons,
            List.length_map] at hlong
          omega
        · intro hall
          exact absurd hclosed (hall line List.mem_cons_self)
      · have hrest : (∀ other ∈ line :: lines, ¬ ClosesInclude dir other)
            ↔ ∀ other ∈ lines, ¬ ClosesInclude dir other := by
          simp [hclosed]
        rw [hrest, ← ih, List.map_cons, List.filterMap_cons, List.filterMap_cons,
          include?_expandDir h hclosed]
        cases include? line with
        | none => exact Iff.rfl
        | some target => simp

end Line

namespace OpGroups

theorem extendGroup_map (f : Op → Op) (pattern : Option String) (ops : List Op)
    (groups : List (Option String × List Op)) :
    extendGroup pattern (ops.map f) (groups.map fun entry => (entry.1, entry.2.map f))
      = (extendGroup pattern ops groups).map fun entry => (entry.1, entry.2.map f) := by
  induction groups with
  | nil =>
      rfl
  | cons entry groups ih =>
      obtain ⟨key, old⟩ := entry
      by_cases hkey : key = pattern
      · simp [extendGroup, hkey]
      · simp [extendGroup, hkey, ih]

theorem push_expandDir (dir : String) (g : OpGroups) (pattern : Option String) (op : Op) :
    (g.push pattern op).expandDir dir = (g.expandDir dir).push pattern (op.expandDir dir) := by
  unfold push expandDir
  rw [← extendGroup_map]
  rfl

end OpGroups

namespace Profile

variable {path dir : String} {origin : Option String} {number : Nat} {place place' : Place}
  {p p' q : Profile} {line : List Char} {lines rest : List (List Char)}

/-! ### Reading -/

/-- The second profile has the operations of the first one, with the directory in their values. -/
def ExpandsTo (dir : String) (p q : Profile) : Prop :=
  ∀ scope, q.environment scope = (p.environment scope).expandDir dir

theorem expandsTo_empty (dir : String) : ExpandsTo dir empty empty := by
  intro scope
  cases scope <;> rfl

theorem ExpandsTo.record (h : ExpandsTo dir p q) (scope : Scope) (pattern : Option String)
    (op : Op) :
    ExpandsTo dir (p.record scope pattern op) (q.record scope pattern (op.expandDir dir)) := by
  have hrecord : ∀ (p : Profile) (op : Op), (p.record scope pattern op).environment scope
      = (p.environment scope).push pattern op := by
    intro p op
    cases scope <;> rfl
  intro other
  by_cases hscope : scope = other
  · subst hscope
    rw [hrecord, hrecord, h scope, OpGroups.push_expandDir]
  · rw [environment_record_of_ne hscope, environment_record_of_ne hscope]
    exact h other

/-- A line that counts in a section of a scope is one of the section's lines. -/
theorem mem_linesFrom {scope : Scope} (hcontent : isIgnored (trim line) = false)
    (hline : Line.section? (trim line) = none) (hinside : place = .under (some scope)) :
    trim line ∈ linesFrom scope place (withContent (line :: rest)) := by
  rw [withContent_cons hcontent, linesFrom_line hline, if_pos hinside]
  exact List.mem_cons_self

/-- The lines that count after a line are among those that count from it on. -/
theorem ReadsLine.linesFrom_subset (h : ReadsLine (trim line) place p place' p') (scope : Scope) :
    linesFrom scope place' (withContent rest)
      ⊆ linesFrom scope place (withContent (line :: rest)) := by
  cases h with
  | ignored hignored =>
      rw [withContent_cons_of_ignored hignored]
      exact List.Subset.refl _
  | header hcontent hheader =>
      rw [withContent_cons hcontent, linesFrom_header hheader]
      exact List.Subset.refl _
  | included hcontent hline =>
      rw [withContent_cons hcontent, linesFrom_line hline]
      exact List.subset_append_right _ _
  | passed hcontent hline =>
      rw [withContent_cons hcontent, linesFrom_line hline]
      exact List.subset_append_right _ _
  | defined hcontent hline =>
      rw [withContent_cons hcontent, linesFrom_line hline]
      exact List.subset_append_right _ _

theorem ExpandsTo.withIncludes (h : ExpandsTo dir p q) (includes includes' : List String) :
    ExpandsTo dir { p with includes := includes } { q with includes := includes' } := by
  intro scope
  have hscope := h scope
  cases scope <;> exact hscope

/-- Outside the sections of the scopes a line can add an include and nothing else. -/
theorem readLine_outside (hcontent : isIgnored line = false) (hline : Line.section? line = none)
    (houtside : ∀ scope, place ≠ .under (some scope)) :
    ∃ includes,
      readLine origin number place q line = .ok (place, { q with includes := includes }) := by
  unfold readLine
  rw [hcontent, hline]
  rcases place with _ | _ | scope
  · cases Line.include? line with
    | none => exact ⟨_, rfl⟩
    | some target => exact ⟨_, rfl⟩
  · exact ⟨_, rfl⟩
  · exact absurd rfl (houtside scope)

/-- A line that is read goes on to the same place with the directory in it, and gives the same
operation with the directory in its value. -/
theorem ReadsLine.exists_expandDir (h : IsDirectory dir) (hpq : ExpandsTo dir p q)
    (hvalue : ∀ scope, place = .under (some scope) → isIgnored line = false →
      Line.section? line = none → NamedInValue line)
    (hread : ReadsLine line place p place' p') :
    ∃ q', readLine origin number place q (expandDir dir line) = .ok (place', q')
      ∧ ExpandsTo dir p' q' := by
  have hignore := isIgnored_expandDir h line
  have hheaders := Line.section?_expandDir h line
  cases hread with
  | ignored hignored =>
      refine ⟨q, ?_, hpq⟩
      simp [readLine, hignore, hignored]
  | header hcontent hheader =>
      refine ⟨q, ?_, hpq⟩
      simp [readLine, hignore, hcontent, hheaders, hheader]
  | included hcontent hline hhead =>
      subst hhead
      have houtside : ∀ scope, Place.head ≠ .under (some scope) := by
        intro scope heq
        cases heq
      obtain ⟨includes, hread⟩ := @readLine_outside origin number .head q _
        (hignore.trans hcontent) (hheaders.trans hline) houtside
      exact ⟨_, hread, hpq.withIncludes _ includes⟩
  | passed hcontent hline houtside =>
      obtain ⟨includes, hread⟩ := @readLine_outside origin number place q _
        (hignore.trans hcontent) (hheaders.trans hline) houtside
      exact ⟨_, hread, hpq.withIncludes _ includes⟩
  | @defined scope pattern op hcontent hline hinside hdefinition =>
      have hexpanded := Line.definition?_expandDir h (hvalue scope hinside hcontent hline)
      refine ⟨q.record scope pattern (op.expandDir dir), ?_, hpq.record scope pattern op⟩
      simp [readLine, hignore, hcontent, hheaders, hline, hinside, hexpanded, hdefinition]

/-- A line that is refused is refused with the directory in it. -/
theorem RefusesLine.expandDir (h : IsDirectory dir) (hrefused : RefusesLine line place)
    (hvalue : NamedInValue line) : RefusesLine (expandDir dir line) place where
  content := (isIgnored_expandDir h line).trans hrefused.content
  noHeader := (Line.section?_expandDir h line).trans hrefused.noHeader
  inside := hrefused.inside
  noDefinition := by
    rw [Line.definition?_expandDir h hvalue, hrefused.noDefinition]
    rfl

/-- What two readings have in common, one of a text alone and one of the text in a file: both give a
profile, up to the directory in the values, or both refuse the same line under the same number. -/
inductive ReadAlike (path dir : String) : Outcome Profile → Outcome Profile → Prop where
  | read {p q : Profile} (h : ExpandsTo dir p q) : ReadAlike path dir (.ok p) (.ok q)
  | refused (number : Nat) (line : String) :
      ReadAlike path dir (.error (.badDefinition none number line))
        (.error (.badDefinition (some path) number (expandText dir line)))

/-- Lines that hold the name in values only are read alike with the directory in them. -/
theorem readLines_expandDir (h : IsDirectory dir) (hpq : ExpandsTo dir p q)
    (hvalue : ∀ scope, ∀ line ∈ linesFrom scope place (withContent lines), NamedInValue line) :
    ReadAlike path dir (readLines none number place p lines)
      (readLines (some path) number place q (lines.map (expandDir dir))) := by
  induction lines generalizing number place p q with
  | nil =>
      exact .read hpq
  | cons line lines ih =>
      rw [List.map_cons, readLines_cons, readLines_cons, trim_expandDir h]
      cases hline : readLine none number place p (trim line) with
      | error failure =>
          obtain ⟨hrefused, rfl⟩ := readLine_error_iff.mp hline
          obtain ⟨scope, hinside⟩ := hrefused.inside
          have hnamed := hvalue scope _
            (mem_linesFrom hrefused.content hrefused.noHeader hinside)
          have herror := (@readLine_error_iff (some path) number place q _ _).mpr
            ⟨hrefused.expandDir h hnamed, rfl⟩
          rw [herror]
          have hsame := @ReadAlike.refused path dir number (String.ofList (trim line))
          rw [expandText, String.toList_ofList] at hsame
          exact hsame
      | ok read =>
          obtain ⟨place', p'⟩ := read
          have hread := readsLine_of_readLine hline
          have hnamed : ∀ scope, place = .under (some scope) → isIgnored (trim line) = false →
              Line.section? (trim line) = none → NamedInValue (trim line) :=
            fun scope hinside hcontent hheader =>
              hvalue scope _ (mem_linesFrom hcontent hheader hinside)
          obtain ⟨q', hexpanded, hnext⟩ :=
            @ReadsLine.exists_expandDir dir (some path) number _ _ _ _ _ _ h hpq hnamed hread
          rw [hexpanded]
          exact ih hnext fun scope other hother =>
            hvalue scope other (hread.linesFrom_subset scope hother)

/-! ### Whole texts -/

/-- The lines of a text with the directory in it are its lines with the directory in them. -/
theorem withContent_expandDir (h : IsDirectory dir) (lines : List (List Char)) :
    withContent (lines.map (expandDir dir)) = (withContent lines).map (expandDir dir) := by
  induction lines with
  | nil =>
      rfl
  | cons line lines ih =>
      have hignore := isIgnored_expandDir h (trim line)
      rw [← trim_expandDir h] at hignore
      rw [List.map_cons]
      cases hcontent : isIgnored (trim line) with
      | true =>
          rw [withContent_cons_of_ignored hcontent, withContent_cons_of_ignored, ih]
          rw [hignore, hcontent]
      | false =>
          rw [withContent_cons hcontent, withContent_cons, ih, trim_expandDir h, List.map_cons]
          rw [hignore, hcontent]

theorem beforeHeader_expandDir (h : IsDirectory dir) (lines : List (List Char)) :
    beforeHeader (lines.map (expandDir dir)) = (beforeHeader lines).map (expandDir dir) := by
  unfold beforeHeader
  rw [List.takeWhile_map]
  congr 1
  congr 1
  funext line
  simp [Line.section?_expandDir h]

theorem parseFile_eq (hparent : Path.parent? path = some dir) (h : IsDirectory dir)
    (text : String) :
    parseFile path text
      = readLines (some path) 1 .head empty ((pieces '\n' text.toList).map (expandDir dir)) := by
  have hpieces := @pieces_replaceAll directoryName.toList dir.toList '\n' directoryName_ne_nil
    (by decide) h.oneLine text.toList
  rw [parseFile, hparent]
  exact congrArg (readLines (some path) 1 .head empty) hpieces

/-- A text that holds the name of the directory in values only, apart from sections of no scope and
what stands before the first header, is read from a file as it is read alone, with the directory in
place of its name in every value: the same groups with the same names, kinds and marks, or a failure
at the same line. The includes are those of the text, with the directory in place of its name,
exactly if the directory closes none that is left open. -/
theorem parseFile_expands {text : String} (hparent : Path.parent? path = some dir)
    (hdir : IsDirectory dir)
    (hvalue : ∀ scope, ∀ line ∈ sectionLines scope (contentLines text), NamedInValue line) :
    (∀ failure, parse text = .error failure →
        ∃ number line, failure = .badDefinition none number line
          ∧ parseFile path text = .error (.badDefinition (some path) number (expandText dir line)))
      ∧ ∀ p, parse text = .ok p →
        ∃ q, parseFile path text = .ok q
          ∧ (∀ scope, q.environment scope = (p.environment scope).expandDir dir)
          ∧ q.sourceFiles = p.sourceFiles
          ∧ (q.includes = p.includes.map (expandText dir)
            ↔ ∀ line ∈ beforeHeader (contentLines text), ¬ ClosesInclude dir line) := by
  have hlines : ReadAlike path dir (readLines none 1 .head empty (pieces '\n' text.toList))
      (readLines (some path) 1 .head empty ((pieces '\n' text.toList).map (expandDir dir))) :=
    readLines_expandDir hdir (expandsTo_empty dir) hvalue
  have halike : ReadAlike path dir (parse text) (parseFile path text) := by
    rw [parseFile_eq hparent hdir]
    exact hlines
  constructor
  · intro failure hfailure
    rw [hfailure] at halike
    generalize hfile : parseFile path text = read at halike
    cases halike with
    | refused number line =>
        exact ⟨number, line, rfl, rfl⟩
  · intro p hp
    rw [hp] at halike
    generalize hfile : parseFile path text = read at halike
    cases halike with
    | @read _ q hexpands =>
        rw [parseFile_eq hparent hdir] at hfile
        have hincludes := includes_of_readLines hfile
        rw [if_pos rfl, withContent_expandDir hdir, beforeHeader_expandDir hdir] at hincludes
        have hdeclared :
            p.includes = (beforeHeader (contentLines text)).filterMap Line.include? := by
          rw [eq_declared_of_parse hp]
          rfl
        refine ⟨q, rfl, hexpands, ?_, ?_⟩
        · have hempty := sourceFiles_of_readLines hfile
          rw [hempty, eq_declared_of_parse hp]
          rfl
        · rw [hincludes, hdeclared]
          exact Line.filterMap_include?_expandDir hdir _

/-- A profile that holds the name of its directory in an include, in a value and in a section of no
scope. -/
def toolsProfile : String :=
  "include($PROFILE_DIR/base)\n[settings]\n$PROFILE_DIR\n[runenv]\nlib*:P=+(path)$PROFILE_DIR/bin\n"

set_option maxRecDepth 2000 in
/-- A directory with the characters that separate the parts of lines. -/
theorem parseFile_expands_tools :
    ∃ q, parseFile "/a=! #:(x)/main" toolsProfile = .ok q
      ∧ q.includes = ["/a=! #:(x)/base"]
      ∧ q.environment .run = ⟨[(some "lib*", [.put .prepend "P" "/a=! #:(x)/bin" true none])]⟩ := by
  have hparent : Path.parent? "/a=! #:(x)/main" = some "/a=! #:(x)" := by
    rw [Path.parent?, Path.ancestors, Path.holders]
    rfl
  have hdir : IsDirectory "/a=! #:(x)" := by
    refine ⟨rfl, by decide, fun c hc => ?_⟩
    cases hc
    rfl
  have hbuild : sectionLines .build (contentLines toolsProfile) = [] := by
    rfl
  have hrun : sectionLines .run (contentLines toolsProfile)
      = ["lib*:P=+(path)$PROFILE_DIR/bin".toList] := by
    rfl
  have hvalue : ∀ scope, ∀ line ∈ sectionLines scope (contentLines toolsProfile),
      NamedInValue line := by
    intro scope line hline
    cases scope with
    | build =>
        rw [hbuild] at hline
        cases hline
    | run =>
        rw [hrun, List.mem_singleton] at hline
        subst hline
        unfold NamedInValue
        decide
  have hclosed : ∀ line ∈ beforeHeader (contentLines toolsProfile),
      ¬ ClosesInclude "/a=! #:(x)" line := by
    have hhead : beforeHeader (contentLines toolsProfile)
        = ["include($PROFILE_DIR/base)".toList] := by
      rfl
    rw [hhead]
    intro line hline hcloses
    rw [List.mem_singleton] at hline
    subst hline
    have hnamed := hcloses.named
    revert hnamed
    decide
  have hraw : parse toolsProfile = .ok ⟨["$PROFILE_DIR/base"], ⟨[]⟩,
      ⟨[(some "lib*", [.put .prepend "P" "$PROFILE_DIR/bin" true none])]⟩, []⟩ := by
    rfl
  obtain ⟨q, hq, henv, -, hincludes⟩ :=
    (parseFile_expands hparent hdir hvalue).2 _ hraw
  refine ⟨q, hq, ?_, ?_⟩
  · rw [hincludes.mpr hclosed]
    rfl
  · rw [henv .run]
    rfl

/-- A line that names no profile, left open at the name of the directory, becomes an include of the
directory where that ends with a parenthesis. -/
theorem directory_closes_include :
    Path.parent? "/p)/main" = some "/p)" ∧ IsDirectory "/p)"
      ∧ (∀ scope, ∀ line ∈ sectionLines scope (contentLines "include($PROFILE_DIR\n"),
          NamedInValue line)
      ∧ parse "include($PROFILE_DIR\n" = .ok ⟨[], ⟨[]⟩, ⟨[]⟩, []⟩
      ∧ parseFile "/p)/main" "include($PROFILE_DIR\n" = .ok ⟨["/p"], ⟨[]⟩, ⟨[]⟩, []⟩
      ∧ ["/p"] ≠ ([] : List String).map (expandText "/p)") := by
  have hparent : Path.parent? "/p)/main" = some "/p)" := by
    rw [Path.parent?, Path.ancestors, Path.holders]
    rfl
  refine ⟨hparent, ⟨rfl, by decide, fun c hc => ?_⟩, ?_, rfl, ?_, by decide⟩
  · cases hc
    rfl
  · have hnone : ∀ scope, sectionLines scope (contentLines "include($PROFILE_DIR\n") = [] := by
      intro scope
      cases scope <;> rfl
    intro scope line hline
    rw [hnone] at hline
    cases hline
  · rw [parseFile, hparent]
    rfl

end Profile

end EnvLayers
