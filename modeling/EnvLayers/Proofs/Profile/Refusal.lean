import EnvLayers.Proofs.Profile.Sections
import EnvLayers.Proofs.Text.Cut

/-
Module: EnvLayers.Proofs.Profile.Refusal
Purpose: Which texts are profiles, and of what. A line is bad when it stands in a section of a
  scope, by the nearest header above it, and is no definition. A text is refused at its first bad
  line, and a text without one is read as what it declares, so lines in other sections mean nothing.
Main exports: Profile.trimmedLines, Profile.headerAbove, Profile.StandsIn, Profile.IsBad,
  Profile.IsFirstBad, Profile.declared, Profile.IsInclude, Profile.SameButForeign,
  Profile.readLines_cases, Profile.readLines_sameButForeign, Profile.parse_refuses_first_bad
-/

namespace EnvLayers.Profile

open Text
open OpGroups (merged)

/-! ### Lines and the sections that they stand in -/

/-- The lines of a text, without the blanks around them. -/
def trimmedLines (text : String) : List (List Char) := (pieces '\n' text.toList).map trim

/-- The nearest header above a line, by the lines above it. -/
def headerAbove (above : List (List Char)) : Option String :=
  (above.filterMap Line.section?).getLast?

/-- At a position of some lines stands one that counts in a section of the scope: it has content and
is no header itself. -/
structure StandsIn (scope : Scope) (lines : List (List Char)) (i : Nat) (line : List Char) :
    Prop where
  at_position : lines[i]? = some line
  content : isIgnored line = false
  noHeader : Line.section? line = none
  inside : (headerAbove (lines.take i)).bind sectionScope? = some scope

/-- At a position stands a line that has to be a definition and is none. -/
structure IsBad (lines : List (List Char)) (i : Nat) (line : List Char) : Prop where
  stands : ∃ scope, StandsIn scope lines i line
  noDefinition : Line.definition? line = none

/-- At a position stands a bad line, and no bad line stands above it. -/
structure IsFirstBad (lines : List (List Char)) (i : Nat) (line : List Char) : Prop where
  bad : IsBad lines i line
  first : ∀ j < i, ∀ other, ¬ IsBad lines j other

/-- What a text declares: the includes before its first header, and for each scope the definitions
in its sections, grouped by pattern. -/
def declared (text : String) : Profile where
  includes := (beforeHeader (contentLines text)).filterMap Line.include?
  buildEnv := ⟨merged ((definitions .build text).map entryOf)⟩
  runEnv := ⟨merged ((definitions .run text).map entryOf)⟩
  sourceFiles := []

/-- A line is an include with a target: the text between the parentheses and the blanks inside them.
Where nothing but blanks stand between the parentheses, the last of them is the target. -/
inductive IsInclude : List Char → String → Prop where
  | text {before target after : List Char} : (∀ c ∈ before, isBlank c = true) →
      (∀ c ∈ after, isBlank c = true) → NoBlankStart target → NoBlankEnd target → target ≠ [] →
      IsInclude ("include(".toList ++ (before ++ target ++ after ++ [')'])) (String.ofList target)
  | blank {before : List Char} {c : Char} : (∀ c ∈ before, isBlank c = true) → isBlank c = true →
      IsInclude ("include(".toList ++ (before ++ [c] ++ [')'])) (String.singleton c)

/-- The target that is found in a line is the one that the line includes. -/
theorem include?_eq_some_iff {line : List Char} {target : String} :
    Line.include? line = some target ↔ IsInclude line target := by
  have hinclude : ∀ inner : List Char,
      Line.include? ("include(".toList ++ (inner ++ [')'])) = Line.includeTarget inner := by
    intro inner
    have hstart : dropPrefix "include(".toList ("include(".toList ++ (inner ++ [')']))
        = some (inner ++ [')']) := List.isPrefixOf?_eq_some_iff_append_eq.mpr rfl
    rw [Line.include?, hstart, Option.bind_some, dropFinal_append, Option.bind_some]
  constructor
  · intro h
    obtain ⟨rest, hrest, hinner⟩ := Option.bind_eq_some_iff.mp h
    obtain ⟨inner, hfinal, htarget⟩ := Option.bind_eq_some_iff.mp hinner
    obtain rfl := List.isPrefixOf?_eq_some_iff_append_eq.mp hrest
    obtain rfl := dropFinal_eq_some hfinal
    obtain ⟨before, after, htrimmed, hbefore, hafter⟩ := exists_trim inner
    rw [Line.includeTarget] at htarget
    split at htarget
    · next hblank =>
        obtain ⟨c, hlast, htarget⟩ := Option.map_eq_some_iff.mp htarget
        subst htarget
        obtain ⟨start, rfl⟩ := List.getLast?_eq_some_iff.mp hlast
        have hblanks : ∀ d ∈ start ++ [c], isBlank d = true := by
          intro d hd
          rcases mem_trim_or_isBlank hd with hmem | hd
          · rw [hblank] at hmem
            exact absurd hmem List.not_mem_nil
          · exact hd
        obtain ⟨hstart, hc⟩ := List.forall_mem_append.mp hblanks
        exact .blank hstart (hc c List.mem_cons_self)
    · next hne =>
        cases htarget
        have hinner :=
          IsInclude.text hbefore hafter (noBlankStart_trim inner) (noBlankEnd_trim inner) hne
        rwa [← htrimmed] at hinner
  · intro h
    cases h with
    | text hbefore hafter hstart hend hne =>
        rw [hinclude, Line.includeTarget, trim_append_of_blanks hstart hend hne hbefore hafter]
        split
        · contradiction
        · rfl
    | @blank before c hbefore hc =>
        have hblanks : ∀ d ∈ before ++ [c], isBlank d = true :=
          List.forall_mem_append.mpr ⟨hbefore, List.forall_mem_singleton.mpr hc⟩
        rw [hinclude, Line.includeTarget, trim_of_blanks hblanks]
        simp

/-- At a position stands a line of a section that belongs to no scope. -/
def IsForeign (lines : List (List Char)) (i : Nat) : Prop :=
  ∃ line name, lines[i]? = some line ∧ Line.section? line = none
    ∧ headerAbove (lines.take i) = some name ∧ sectionScope? name = none

/-- Lines that differ in sections of no scope only. -/
structure SameButForeign (lines others : List (List Char)) : Prop where
  length_eq : lines.length = others.length
  agree : ∀ i, lines[i]? = others[i]? ∨ IsForeign lines i ∧ IsForeign others i

theorem IsBad.at_position {lines : List (List Char)} {i : Nat} {line : List Char}
    (h : IsBad lines i line) : lines[i]? = some line := by
  obtain ⟨_, hstands⟩ := h.stands
  exact hstands.at_position

theorem IsFirstBad.unique {lines : List (List Char)} {i j : Nat} {line other : List Char}
    (h : IsFirstBad lines i line) (h' : IsFirstBad lines j other) : i = j ∧ line = other := by
  have heq : i = j := by
    apply Nat.le_antisymm
    · exact Nat.le_of_not_lt fun hlt => h.first j hlt other h'.bad
    · exact Nat.le_of_not_lt fun hlt => h'.first i hlt line h.bad
  subst heq
  exact ⟨rfl, Option.some.inj (h.bad.at_position.symm.trans h'.bad.at_position)⟩

/-! ### The place of a line by the header above it -/

/-- The place of the lines below a header, or before the first one. -/
def placeUnder : Option String → Place
  | none => .head
  | some name => .under (sectionScope? name)

theorem placeUnder_eq_under_iff {header : Option String} {scope : Scope} :
    placeUnder header = .under (some scope) ↔ header.bind sectionScope? = some scope := by
  cases header <;> simp [placeUnder]

theorem headerAbove_concat (above : List (List Char)) (line : List Char) :
    headerAbove (above ++ [line]) = (Line.section? line).or (headerAbove above) := by
  unfold headerAbove
  cases h : Line.section? line <;> simp [h]

/-- A line without content is no header. -/
theorem section?_of_isIgnored {line : List Char} (h : isIgnored line) :
    Line.section? line = none := by
  cases line with
  | nil =>
      rfl
  | cons c cs =>
      have hc : c = '#' := by
        simpa [isIgnored] using h
      subst hc
      rfl

section Reading

variable {origin : Option String} {number : Nat} {p q : Profile} {place place' : Place}
  {line : List Char} {above lines others rest : List (List Char)}

/-- The next line stands under the header that is the nearest one by then. -/
theorem ReadsLine.place_eq (h : ReadsLine line (placeUnder (headerAbove above)) p place' q) :
    place' = placeUnder (headerAbove (above ++ [line])) := by
  rw [headerAbove_concat]
  cases h with
  | ignored hignored =>
      simp [section?_of_isIgnored hignored]
  | header _ hheader =>
      simp [hheader, placeUnder]
  | included _ hline =>
      simp [hline]
  | passed _ hline =>
      simp [hline]
  | defined _ hline =>
      simp [hline]

/-! ### The first bad line -/

/-- A line is refused exactly where it is bad. -/
theorem refusesLine_iff (hline : lines = above ++ line :: rest) :
    RefusesLine line (placeUnder (headerAbove above)) ↔ IsBad lines above.length line := by
  have hat : lines[above.length]? = some line := by
    simp [hline]
  have habove : lines.take above.length = above := by
    simp [hline]
  constructor
  · rintro ⟨hcontent, hheader, ⟨scope, hinside⟩, hdefinition⟩
    refine ⟨⟨scope, hat, hcontent, hheader, ?_⟩, hdefinition⟩
    rw [habove]
    exact placeUnder_eq_under_iff.mp hinside
  · rintro ⟨⟨scope, -, hcontent, hheader, hinside⟩, hdefinition⟩
    rw [habove] at hinside
    exact ⟨hcontent, hheader, ⟨scope, placeUnder_eq_under_iff.mpr hinside⟩, hdefinition⟩

/-- Below lines of which none is bad, the lines that follow are read to their end when none of them
is bad, and are refused at the first one that is. -/
theorem readLines_cases (hlines : lines = above ++ rest.map trim)
    (habove : ∀ i < above.length, ∀ line, ¬ IsBad lines i line) :
    ((∀ i line, ¬ IsBad lines i line)
        ∧ ∃ q, readLines origin (above.length + 1) (placeUnder (headerAbove above)) p rest = .ok q)
      ∨ ∃ i line, IsFirstBad lines i line
        ∧ readLines origin (above.length + 1) (placeUnder (headerAbove above)) p rest
          = .error (.badDefinition origin (i + 1) (String.ofList line)) := by
  induction rest generalizing above p with
  | nil =>
      left
      refine ⟨fun i line hbad => ?_, p, rfl⟩
      obtain ⟨hlt, -⟩ := List.getElem?_eq_some_iff.mp hbad.at_position
      apply habove i _ line hbad
      simpa [hlines] using hlt
  | cons line rest ih =>
      rw [List.map_cons] at hlines
      simp only [readLines_cons]
      cases hread : readLine origin (above.length + 1) (placeUnder (headerAbove above)) p
          (trim line) with
      | error failure =>
          obtain ⟨hrefused, rfl⟩ := readLine_error_iff.mp hread
          right
          exact ⟨above.length, trim line, ⟨(refusesLine_iff hlines).mp hrefused, habove⟩, rfl⟩
      | ok read =>
          obtain ⟨place', p'⟩ := read
          have hplace := (readsLine_of_readLine hread).place_eq
          have hgood : ¬ IsBad lines above.length (trim line) := by
            intro hbad
            have herror := (@readLine_error_iff origin (above.length + 1) _ p _ _).mpr
              ⟨(refusesLine_iff hlines).mpr hbad, rfl⟩
            rw [hread] at herror
            cases herror
          have hnext : ∀ i < (above ++ [trim line]).length, ∀ line, ¬ IsBad lines i line := by
            intro i hi other hother
            simp only [List.length_append, List.length_singleton] at hi
            rcases Nat.lt_succ_iff_lt_or_eq.mp hi with hlt | rfl
            · exact habove i hlt other hother
            · have hsame : trim line = other := by
                simpa [hlines] using hother.at_position
              exact hgood (hsame ▸ hother)
          have hrest := @ih p' (above ++ [trim line]) (by simp [hlines]) hnext
          rw [← hplace, List.length_append, List.length_singleton] at hrest
          exact hrest

/-! ### What is read -/

theorem includes_record (p : Profile) (scope : Scope) (pattern : Option String) (op : Op) :
    (p.record scope pattern op).includes = p.includes := by
  cases scope <;> rfl

theorem sourceFiles_record (p : Profile) (scope : Scope) (pattern : Option String) (op : Op) :
    (p.record scope pattern op).sourceFiles = p.sourceFiles := by
  cases scope <;> rfl

/-- Reading names no files. -/
theorem sourceFiles_of_readLines (h : readLines origin number place p lines = .ok q) :
    q.sourceFiles = p.sourceFiles := by
  induction lines generalizing number place p with
  | nil =>
      cases h
      rfl
  | cons line lines ih =>
      rw [readLines_cons, bind_ok_iff] at h
      obtain ⟨⟨place', p'⟩, hread, hrest⟩ := h
      rw [ih hrest]
      cases readsLine_of_readLine hread with
      | ignored _ => rfl
      | header _ _ => rfl
      | included _ _ _ _ => rfl
      | passed _ _ _ _ => rfl
      | defined _ _ _ _ => exact sourceFiles_record _ _ _ _

/-- The includes that lines add are those before the first header. -/
theorem includes_of_readLines (h : readLines origin number place p lines = .ok q) :
    q.includes = p.includes
      ++ if place = .head then (beforeHeader (withContent lines)).filterMap Line.include?
        else [] := by
  induction lines generalizing number place p with
  | nil =>
      cases h
      simp [withContent, beforeHeader]
  | cons line lines ih =>
      rw [readLines_cons, bind_ok_iff] at h
      obtain ⟨⟨place', p'⟩, hread, hrest⟩ := h
      have hincludes := ih hrest
      -- a line that is no header goes on with what stands before the first header
      have hgo : ∀ {content : List Char}, Line.section? content = none →
          ∀ contents, beforeHeader (content :: contents) = content :: beforeHeader contents := by
        intro content hline contents
        simp [beforeHeader, hline]
      cases readsLine_of_readLine hread with
      | ignored hignored =>
          simp [hincludes, withContent_cons_of_ignored hignored]
      | header hcontent hheader =>
          simp [hincludes, withContent_cons hcontent, beforeHeader, hheader]
      | included hcontent hline hhead hnames =>
          simp [hincludes, withContent_cons hcontent, hgo hline, hhead, hnames]
      | passed hcontent hline _ hnone =>
          by_cases hhead : place = .head
          · simp [hincludes, withContent_cons hcontent, hgo hline, hhead, hnone hhead]
          · simp [hincludes, hhead]
      | defined _ _ hinside _ =>
          simp [hincludes, hinside, includes_record]

end Reading

/-- A text that is read is read as what it declares. -/
theorem eq_declared_of_parse {text : String} {p : Profile} (h : parse text = .ok p) :
    p = declared text := by
  have hread : ∃ number lines, readLines none number .head empty lines = .ok p
      ∧ withContent lines = contentLines text := ⟨_, _, h, rfl⟩
  obtain ⟨number, lines, hlines, hcontent⟩ := hread
  apply eq_of_groups_eq
  · have hincludes := includes_of_readLines hlines
    rw [hcontent] at hincludes
    exact hincludes
  · intro scope
    cases scope <;> exact (sections_of_parse h _).2
  · have hfiles := sourceFiles_of_readLines hlines
    exact hfiles

/-! ### Lines that mean nothing -/

section Foreign

variable {origin : Option String} {number : Nat} {p : Profile}
  {line line' : List Char} {above above' lines others rest rest' : List (List Char)}

/-- A line of a section that belongs to no scope is read as nothing. -/
theorem readLine_under_none (h : Line.section? line = none) :
    readLine origin number (.under none) p line = .ok (.under none, p) := by
  unfold readLine
  split
  · rfl
  · simp [h]

/-- The lines at one position are the same header or none, and they are read alike. -/
theorem SameButForeign.alike (h : SameButForeign lines others)
    (hlines : lines = above ++ line :: rest) (hothers : others = above' ++ line' :: rest')
    (hlength : above.length = above'.length) (hheader : headerAbove above = headerAbove above') :
    Line.section? line = Line.section? line'
      ∧ readLine origin number (placeUnder (headerAbove above)) p line
        = readLine origin number (placeUnder (headerAbove above')) p line' := by
  have hat : lines[above.length]? = some line := by
    simp [hlines]
  have hat' : others[above.length]? = some line' := by
    simp [hothers, hlength]
  rcases h.agree above.length with heq | ⟨hforeign, hforeign'⟩
  · rw [hat, hat'] at heq
    cases heq
    rw [hheader]
    exact ⟨rfl, rfl⟩
  · obtain ⟨_, name, hline, hnone, habove, hscope⟩ := hforeign
    obtain ⟨_, _, hother, hnone', -⟩ := hforeign'
    cases hat.symm.trans hline
    cases hat'.symm.trans hother
    have hname : headerAbove above = some name := by
      simpa [hlines] using habove
    have hplace : placeUnder (headerAbove above) = .under none := by
      simp [hname, placeUnder, hscope]
    rw [← hheader, hplace, readLine_under_none hnone, readLine_under_none hnone', hnone, hnone']
    exact ⟨rfl, rfl⟩

/-- Lines that differ in sections of no scope only are read alike. -/
theorem readLines_sameButForeign (h : SameButForeign lines others)
    (hlines : lines = above ++ rest.map trim) (hothers : others = above' ++ rest'.map trim)
    (hlength : above.length = above'.length) (hheader : headerAbove above = headerAbove above') :
    readLines origin number (placeUnder (headerAbove above)) p rest
      = readLines origin number (placeUnder (headerAbove above')) p rest' := by
  have hrest : rest.length = rest'.length := by
    have hall := h.length_eq
    simp only [hlines, hothers, List.length_append, List.length_map] at hall
    omega
  induction rest generalizing above above' rest' number p with
  | nil =>
      have hnil : rest' = [] := List.length_eq_zero_iff.mp hrest.symm
      subst hnil
      rfl
  | cons line rest ih =>
      cases rest' with
      | nil =>
          cases hrest
      | cons line' rest' =>
          rw [List.map_cons] at hlines hothers
          obtain ⟨hsection, hread⟩ :=
            @SameButForeign.alike origin number p _ _ _ _ _ _ _ _ h hlines hothers hlength hheader
          rw [readLines_cons, readLines_cons, hread]
          cases hline : readLine origin number (placeUnder (headerAbove above')) p (trim line') with
          | error failure =>
              rfl
          | ok read =>
              obtain ⟨place, p'⟩ := read
              have hplace := (readsLine_of_readLine hline).place_eq
              have hnext : headerAbove (above ++ [trim line])
                  = headerAbove (above' ++ [trim line']) := by
                simp only [headerAbove_concat, hsection, hheader]
              have hlines' := @ih (number + 1) p' (above ++ [trim line])
                (above' ++ [trim line']) rest' (by simp [hlines]) (by simp [hothers])
                (by simp [hlength]) hnext (Nat.succ_inj.mp hrest)
              rw [hnext, ← hplace] at hlines'
              exact hlines'

end Foreign

/-! ### Whole texts -/

/-- A text is refused if and only if it has a bad line, and then it is the first one that is
reported, without the blanks around it and under its number from one on. A text without a bad line
is read as what it declares. Lines in sections of no scope have no part in either. -/
theorem parse_refuses_first_bad (text : String) :
    ((∃ failure, parse text = .error failure) ↔ ∃ i line, IsBad (trimmedLines text) i line)
      ∧ (∀ failure, parse text = .error failure
        ↔ ∃ i line, IsFirstBad (trimmedLines text) i line
          ∧ failure = .badDefinition none (i + 1) (String.ofList line))
      ∧ (∀ p, parse text = .ok p
        ↔ (∀ i line, ¬ IsBad (trimmedLines text) i line) ∧ p = declared text)
      ∧ ∀ other, SameButForeign (trimmedLines text) (trimmedLines other) →
        parse other = parse text := by
  have hcases : ((∀ i line, ¬ IsBad (trimmedLines text) i line) ∧ ∃ p, parse text = .ok p)
      ∨ ∃ i line, IsFirstBad (trimmedLines text) i line
        ∧ parse text = .error (.badDefinition none (i + 1) (String.ofList line)) :=
    @readLines_cases none empty [] _ _ rfl nofun
  have hforeign : ∀ other, SameButForeign (trimmedLines text) (trimmedLines other) →
      parse other = parse text := fun other h =>
    (@readLines_sameButForeign none 1 empty [] [] _ _ _ _ h rfl rfl rfl rfl).symm
  obtain ⟨hnone, p, hp⟩ | ⟨i, line, hfirst, hrefused⟩ := hcases
  · have hdeclared := eq_declared_of_parse hp
    refine ⟨⟨?_, ?_⟩, fun failure => ⟨?_, ?_⟩, fun q => ⟨?_, ?_⟩, hforeign⟩
    · rintro ⟨failure, hfailure⟩
      cases hp.symm.trans hfailure
    · rintro ⟨i, line, hbad⟩
      exact absurd hbad (hnone i line)
    · intro hfailure
      cases hp.symm.trans hfailure
    · rintro ⟨i, line, hfirst, -⟩
      exact absurd hfirst.bad (hnone i line)
    · intro hq
      exact ⟨hnone, eq_declared_of_parse hq⟩
    · rintro ⟨-, rfl⟩
      rw [hp, hdeclared]
  · refine ⟨⟨?_, ?_⟩, fun failure => ⟨?_, ?_⟩, fun q => ⟨?_, ?_⟩, hforeign⟩
    · rintro -
      exact ⟨i, line, hfirst.bad⟩
    · rintro -
      exact ⟨_, hrefused⟩
    · intro hfailure
      cases hrefused.symm.trans hfailure
      exact ⟨i, line, hfirst, rfl⟩
    · rintro ⟨j, other, hother, rfl⟩
      obtain ⟨rfl, rfl⟩ := hfirst.unique hother
      exact hrefused
    · intro hq
      cases hrefused.symm.trans hq
    · rintro ⟨hnone, -⟩
      exact absurd hfirst.bad (hnone i line)

/-- A text with two lines that are bad, and one before them in a section of no scope. -/
def brokenProfile : String :=
  "include(common)\n[settings]\nos\n# os\n[ runenv ]\nMODE=fast\n MODE \nMODE\n"

/-- The same text with another line in the section of no scope. -/
def otherSettings : String :=
  "include(common)\n[settings]\ninclude(os)\n# os\n[ runenv ]\nMODE=fast\n MODE \nMODE\n"

/-- A text with two includes, one of them with blanks around its target, and with a line that would
be an include above the first header. -/
def includingProfile : String :=
  "include(common)\ninclude( ../base )\n[runenv]\nMODE=fast\n[settings]\ninclude(late)\n"

theorem parse_refuses_first_bad_mode :
    IsFirstBad (trimmedLines brokenProfile) 6 "MODE".toList
      ∧ SameButForeign (trimmedLines brokenProfile) (trimmedLines otherSettings)
      ∧ parse otherSettings = .error (.badDefinition none 7 "MODE")
      ∧ (∀ i line, ¬ IsBad (trimmedLines includingProfile) i line)
      ∧ parse includingProfile = .ok (declared includingProfile)
      ∧ (declared includingProfile).includes = ["common", "../base"]
      ∧ (declared includingProfile).runEnv = ⟨[(none, [.define "MODE" "fast"])]⟩ := by
  have hbroken : parse brokenProfile = .error (.badDefinition none 7 "MODE") := by
    rfl
  have hlines : trimmedLines brokenProfile = ["include(common)".toList, "[settings]".toList,
      "os".toList, "# os".toList, "[ runenv ]".toList, "MODE=fast".toList, "MODE".toList,
      "MODE".toList, []] := by
    rfl
  have hothers : trimmedLines otherSettings
      = (trimmedLines brokenProfile).set 2 "include(os)".toList := by
    rw [hlines]
    rfl
  have hsame : SameButForeign (trimmedLines brokenProfile) (trimmedLines otherSettings) := by
    refine ⟨by rw [hothers, List.length_set], fun i => ?_⟩
    by_cases hi : i = 2
    · subst hi
      right
      rw [hothers, hlines]
      exact ⟨⟨_, "settings", rfl, by decide, by decide, by decide⟩,
        ⟨_, "settings", rfl, by decide, by decide, by decide⟩⟩
    · left
      rw [hothers, List.getElem?_set_ne (Ne.symm hi)]
  obtain ⟨-, hrefused, -, hforeign⟩ := parse_refuses_first_bad brokenProfile
  obtain ⟨i, line, hfirst, hfailure⟩ := (hrefused _).mp hbroken
  injection hfailure with _ hnumber hline
  obtain rfl : i = 6 := (Nat.succ_inj.mp hnumber).symm
  obtain rfl : line = "MODE".toList := by
    rw [hline, String.toList_ofList]
  have hincluding : parse includingProfile = .ok {
      includes := ["common", "../base"]
      buildEnv := ⟨[]⟩
      runEnv := ⟨[(none, [.define "MODE" "fast"])]⟩
      sourceFiles := [] } := by
    rfl
  obtain ⟨-, -, hread, -⟩ := parse_refuses_first_bad includingProfile
  obtain ⟨hgood, hdeclared⟩ := (hread _).mp hincluding
  refine ⟨hfirst, hsame, (hforeign _ hsame).trans hbroken, hgood, ?_, ?_, ?_⟩
  · exact (hread _).mpr ⟨hgood, rfl⟩
  · rw [← hdeclared]
  · rw [← hdeclared]

end EnvLayers.Profile
