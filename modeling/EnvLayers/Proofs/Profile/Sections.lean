import EnvLayers.Proofs.Outcome
import EnvLayers.Proofs.Profile.Groups
import EnvLayers.Proofs.Profile.Read
import Mathlib.Data.List.Forall2

/-
Module: EnvLayers.Proofs.Profile.Sections
Purpose: What profiles that are read from texts give to a package. The sections of a scope are the
  lines after its headers; their definitions, text after text, are selected by pattern in the order
  in which the patterns first appear, and under each pattern in their own order.
Main exports: Profile.contentLines, Profile.sectionLines, Profile.definitions, Profile.selected,
  Profile.sections_of_parse, Profile.select_compose_parsed
-/

namespace EnvLayers.Profile

open Text
open OpGroups (merged opsUnder patterns)

/-! ### The sections of a text -/

/-- The lines that have content, trimmed. -/
def withContent (lines : List (List Char)) : List (List Char) :=
  (lines.map trim).filter (!isIgnored ·)

/-- The lines of a text that have content, trimmed. -/
def contentLines (text : String) : List (List Char) := withContent (pieces '\n' text.toList)

/-- The lines before the first header among some lines. -/
def beforeHeader (lines : List (List Char)) : List (List Char) :=
  lines.takeWhile fun line => (Line.section? line).isNone

/-- The lines in the sections of a scope: those between a header of the scope and the next header,
for every such header. -/
def sectionLines (scope : Scope) : List (List Char) → List (List Char)
  | [] => []
  | line :: rest =>
    (if (Line.section? line).bind sectionScope? = some scope then beforeHeader rest else [])
      ++ sectionLines scope rest

/-- The patterns and operations that the sections of a scope define in a text, line by line. -/
def definitions (scope : Scope) (text : String) : List (Option String × Op) :=
  (sectionLines scope (contentLines text)).filterMap Line.definition?

/-- What definitions give to a reference: for each pattern that is absent or holds for the
reference, where it appears first, its operations in order. -/
def selected (holds : String → String → Bool) (reference : String)
    (definitions : List (Option String × Op)) : List Op :=
  ((newTo [] (definitions.map (·.1))).filter (·.all (holds · reference))).flatMap fun pattern =>
    (definitions.filter (·.1 = pattern)).map (·.2)

/-! ### Definitions as entries -/

/-- A definition as a group of its own. -/
def entryOf (definition : Option String × Op) : OpGroups.Entry := (definition.1, [definition.2])

theorem patterns_map_entryOf (definitions : List (Option String × Op)) :
    patterns (definitions.map entryOf) = newTo [] (definitions.map (·.1)) := by
  rw [patterns, List.map_map]
  rfl

theorem opsUnder_map_entryOf (pattern : Option String) (definitions : List (Option String × Op)) :
    opsUnder pattern (definitions.map entryOf)
      = (definitions.filter (·.1 = pattern)).map (·.2) := by
  rw [opsUnder, List.filter_map, List.flatMap_map]
  exact List.map_eq_flatMap.symm

theorem groups_record {p : Profile} {scope : Scope} {entries : List OpGroups.Entry}
    (h : (p.environment scope).groups = merged entries) (pattern : Option String) (op : Op) :
    ((p.record scope pattern op).environment scope).groups
      = merged (entries ++ [(pattern, [op])]) := by
  rw [← OpGroups.extendGroup_merged, ← h]
  cases scope <;> rfl

theorem environment_record_of_ne {p : Profile} {scope other : Scope} (h : other ≠ scope)
    (pattern : Option String) (op : Op) :
    (p.record other pattern op).environment scope = p.environment scope := by
  cases other <;> cases scope
  · exact absurd rfl h
  · rfl
  · rfl
  · exact absurd rfl h

/-! ### Reading -/

/-- The lines that count for a scope when lines are read from a place on. -/
def linesFrom (scope : Scope) (place : Place) (lines : List (List Char)) : List (List Char) :=
  (if place = .under (some scope) then beforeHeader lines else []) ++ sectionLines scope lines

section Reading

variable {scope : Scope} {place : Place} {line : List Char} {rest : List (List Char)}

/-- A header ends the section that it stands in and starts its own. -/
theorem linesFrom_header {name : String} (h : Line.section? line = some name) :
    linesFrom scope place (line :: rest) = linesFrom scope (.under (sectionScope? name)) rest := by
  have hstop : beforeHeader (line :: rest) = [] := by
    simp [beforeHeader, h]
  simp [linesFrom, sectionLines, hstop, h]

/-- A line that is no header counts where it stands in a section of the scope. -/
theorem linesFrom_line (h : Line.section? line = none) :
    linesFrom scope place (line :: rest)
      = (if place = .under (some scope) then [line] else []) ++ linesFrom scope place rest := by
  have hgo : beforeHeader (line :: rest) = line :: beforeHeader rest := by
    simp [beforeHeader, h]
  by_cases hplace : place = .under (some scope) <;> simp [linesFrom, sectionLines, hgo, h, hplace]

/-- Lines without content do not count. -/
theorem withContent_cons_of_ignored (h : isIgnored (trim line)) :
    withContent (line :: rest) = withContent rest := by
  simp [withContent, h]

theorem withContent_cons (h : isIgnored (trim line) = false) :
    withContent (line :: rest) = trim line :: withContent rest := by
  simp [withContent, h]

/-- The definitions of a scope's sections are recorded in order from any profile on. -/
theorem sections_of_readLines {origin : Option String} {number : Nat} {p q : Profile}
    {lines : List (List Char)} {entries : List OpGroups.Entry}
    (hentries : (p.environment scope).groups = merged entries)
    (h : readLines origin number place p lines = .ok q) :
    (∀ line ∈ linesFrom scope place (withContent lines), (Line.definition? line).isSome)
      ∧ (q.environment scope).groups
        = merged (entries ++ ((linesFrom scope place (withContent lines)).filterMap
            Line.definition?).map entryOf) := by
  induction lines generalizing number place p entries with
  | nil =>
      cases h
      simp [withContent, linesFrom, beforeHeader, sectionLines, hentries]
  | cons line lines ih =>
      unfold readLines at h
      split at h
      · cases h
      · next place' p' hread =>
          cases readsLine_of_readLine hread with
          | ignored hignored =>
              rw [withContent_cons_of_ignored hignored]
              exact ih hentries h
          | header hcontent hheader =>
              rw [withContent_cons hcontent, linesFrom_header hheader]
              exact ih hentries h
          | included hcontent hline hhead =>
              have houtside : place ≠ .under (some scope) := hhead ▸ nofun
              rw [withContent_cons hcontent, linesFrom_line hline, if_neg houtside,
                List.nil_append]
              refine ih ?_ h
              cases scope <;> exact hentries
          | passed hcontent hline houtside =>
              rw [withContent_cons hcontent, linesFrom_line hline, if_neg (houtside scope),
                List.nil_append]
              exact ih hentries h
          | @defined other pattern op hcontent hline hinside hdefinition =>
              subst hinside
              rw [withContent_cons hcontent, linesFrom_line hline]
              by_cases hscope : other = scope
              · subst hscope
                obtain ⟨hall, hgroups⟩ := ih (groups_record hentries pattern op) h
                rw [if_pos rfl]
                constructor
                · intro l hl
                  rcases List.mem_cons.mp hl with rfl | hl
                  · simp [hdefinition]
                  · exact hall l hl
                · rw [hgroups]
                  simp [hdefinition, entryOf]
              · have hother : Place.under (some other) ≠ .under (some scope) := by
                  intro heq
                  cases heq
                  exact hscope rfl
                rw [if_neg hother, List.nil_append]
                refine ih ?_ h
                rw [environment_record_of_ne hscope]
                exact hentries

end Reading

/-- Where a text is read, every line in the sections of a scope is a definition, and the groups of
the scope are these definitions, merged. -/
theorem sections_of_parse {text : String} {p : Profile} (h : parse text = .ok p) (scope : Scope) :
    (∀ line ∈ sectionLines scope (contentLines text), (Line.definition? line).isSome)
      ∧ (p.environment scope).groups = merged ((definitions scope text).map entryOf) := by
  have hempty : (empty.environment scope).groups = merged [] := by
    cases scope <;> rfl
  have hread : ∃ number lines, readLines none number .head empty lines = .ok p
      ∧ withContent lines = contentLines text := ⟨_, _, h, rfl⟩
  obtain ⟨number, lines, hlines, hcontent⟩ := hread
  have hsections := sections_of_readLines hempty hlines
  rw [hcontent] at hsections
  exact hsections

/-! ### Profiles from texts -/

/-- What profiles that are read from texts give to a reference. All lines in the sections of the
scope are definitions, and those whose pattern is absent or holds for the reference are selected:
the patterns in the order in which they first appear, text after text, and for each pattern exactly
its operations in order. No profile boundary and no section boundary shows in it. -/
theorem select_compose_parsed (holds : String → String → Bool) (scope : Scope) (reference : String)
    {texts : List String} {profiles : List Profile} (h : texts.mapM parse = .ok profiles) :
    (∀ text ∈ texts, ∀ line ∈ sectionLines scope (contentLines text),
        (Line.definition? line).isSome)
      ∧ ((compose profiles).environment scope).selectBy holds reference
        = selected holds reference (texts.flatMap (definitions scope)) := by
  have hparsed := (mapM_ok_iff.mp h).imp fun _ _ hparse => sections_of_parse hparse scope
  constructor
  · clear h
    induction hparsed with
    | nil =>
        exact List.forall_mem_nil _
    | cons hhead _ ih =>
        exact List.forall_mem_cons.mpr ⟨hhead.1, ih⟩
  · have hgroups : profiles.flatMap (fun p => (p.environment scope).groups)
        = texts.flatMap fun text => merged ((definitions scope text).map entryOf) := by
      clear h
      induction hparsed with
      | nil =>
          rfl
      | cons hhead _ ih =>
          rw [List.flatMap_cons, List.flatMap_cons, hhead.2, ih]
    have hmerged : ((compose profiles).environment scope).groups
        = merged ((texts.flatMap (definitions scope)).map entryOf) := by
      rw [groups_compose, hgroups, OpGroups.merged_flatMap_merged, List.map_flatMap]
    rw [OpGroups.selectBy_of_merged hmerged, patterns_map_entryOf, selected]
    simp only [opsUnder_map_entryOf]

/-- Two texts with the same patterns in several sections. -/
def layeredTexts : List String :=
  ["include(common)\n[settings]\nos=Linux\n[runenv]\nMODE=fast\nlib*:TRACE=1\n[buildenv]\nCC=gcc\n"
      ++ "[runenv]\nMODE+=safe\n",
    "# overrides\n[runenv]\nlib*:TRACE+=2\napp:MODE=!\nMODE+=last\n"]

/-- The profiles that are read from them. -/
def layeredProfiles : List Profile :=
  [{ empty with
      includes := ["common"]
      buildEnv := ⟨[(none, [.define "CC" "gcc"])]⟩
      runEnv := ⟨[(none, [.define "MODE" "fast", .append "MODE" "safe"]),
        (some "lib*", [.define "TRACE" "1"])]⟩ },
    { empty with
      runEnv := ⟨[(some "lib*", [.append "TRACE" "2"]), (some "app", [.unset "MODE"]),
        (none, [.append "MODE" "last"])]⟩ }]

theorem mapM_parse_layeredTexts : layeredTexts.mapM parse = .ok layeredProfiles := by
  rfl

theorem select_compose_parsed_lib :
    layeredTexts.mapM parse = .ok layeredProfiles
      ∧ ((compose layeredProfiles).environment .run).selectBy Pattern.applies "lib/1.0"
        = [.define "MODE" "fast", .append "MODE" "safe", .append "MODE" "last",
          .define "TRACE" "1", .append "TRACE" "2"] := by
  refine ⟨mapM_parse_layeredTexts, ?_⟩
  apply (select_compose_parsed Pattern.applies .run "lib/1.0" mapM_parse_layeredTexts).2.trans
  have hstar : Pattern.applies "lib*" "lib/1.0" = true := by
    simp [Pattern.applies, Pattern.compile, Pattern.compileFrom]
    rfl
  have hother : Pattern.applies "app" "lib/1.0" = false := by
    simp [Pattern.applies, Pattern.compile, Pattern.compileFrom]
    rfl
  have hdefinitions : layeredTexts.flatMap (definitions .run) = [(none, .define "MODE" "fast"),
      (some "lib*", .define "TRACE" "1"), (none, .append "MODE" "safe"),
      (some "lib*", .append "TRACE" "2"), (some "app", .unset "MODE"),
      (none, .append "MODE" "last")] := by
    rfl
  have hpatterns : newTo [] [none, some "lib*", none, some "lib*", some "app", none]
      = [none, some "lib*", some "app"] := by
    decide
  rw [hdefinitions, selected]
  simp [hpatterns, hstar, hother]

end EnvLayers.Profile
