import EnvLayers.Profile.Parse

/-
Module: EnvLayers.Proofs.Profile.Read
Purpose: What reading one line of a profile can do. Every property of what a text is read as follows
  from these cases by induction on its lines.
Main exports: Profile.ReadsLine, Profile.readsLine_of_readLine, Profile.RefusesLine,
  Profile.readLine_error_iff, Profile.readLines_cons, Profile.exists_badDefinition
-/

namespace EnvLayers.Profile

open Text

/-- The ways in which a line is read at a place of a text: with what is read so far, and to the
place of the next line and what is read then. -/
inductive ReadsLine (line : List Char) (place : Place) (p : Profile) : Place → Profile → Prop where
  | ignored (ignored : isIgnored line) : ReadsLine line place p place p
  | header {name : String} (content : isIgnored line = false)
      (header : Line.section? line = some name) :
      ReadsLine line place p (.under (sectionScope? name)) p
  | included {target : String} (content : isIgnored line = false)
      (noHeader : Line.section? line = none) (head : place = .head)
      (names : Line.include? line = some target) :
      ReadsLine line place p place { p with includes := p.includes ++ [target] }
  | passed (content : isIgnored line = false) (noHeader : Line.section? line = none)
      (outside : ∀ scope, place ≠ .under (some scope))
      (noInclude : place = .head → Line.include? line = none) : ReadsLine line place p place p
  | defined {scope : Scope} {pattern : Option String} {op : Op} (content : isIgnored line = false)
      (noHeader : Line.section? line = none) (inside : place = .under (some scope))
      (definition : Line.definition? line = some (pattern, op)) :
      ReadsLine line place p place (p.record scope pattern op)

/-- A line that is not refused is read in one of the ways. -/
theorem readsLine_of_readLine {origin : Option String} {number : Nat} {place place' : Place}
    {p q : Profile} {line : List Char}
    (h : readLine origin number place p line = .ok (place', q)) :
    ReadsLine line place p place' q := by
  unfold readLine at h
  by_cases hignored : isIgnored line
  · rw [if_pos hignored] at h
    cases h
    exact .ignored hignored
  · have hcontent : isIgnored line = false := Bool.eq_false_iff.mpr hignored
    rw [if_neg hignored] at h
    cases hsection : Line.section? line with
    | some name =>
        rw [hsection] at h
        cases h
        exact .header hcontent hsection
    | none =>
        rw [hsection] at h
        rcases place with _ | _ | scope
        · cases hinclude : Line.include? line with
          | none =>
              simp only [hinclude] at h
              cases h
              exact .passed hcontent hsection nofun fun _ => hinclude
          | some target =>
              simp only [hinclude] at h
              cases h
              exact .included hcontent hsection rfl hinclude
        · cases h
          exact .passed hcontent hsection nofun nofun
        · cases hdefinition : Line.definition? line with
          | none =>
              simp [hdefinition] at h
          | some definition =>
              simp only [hdefinition] at h
              cases h
              exact .defined hcontent hsection rfl hdefinition

/-- The one way in which a line is refused at a place: it has to be a definition and is none. -/
structure RefusesLine (line : List Char) (place : Place) : Prop where
  content : isIgnored line = false
  noHeader : Line.section? line = none
  inside : ∃ scope, place = .under (some scope)
  noDefinition : Line.definition? line = none

/-- A line is refused for nothing but a bad definition, under its own number. -/
theorem readLine_error_iff {origin : Option String} {number : Nat} {place : Place} {p : Profile}
    {line : List Char} {failure : Failure} :
    readLine origin number place p line = .error failure
      ↔ RefusesLine line place
        ∧ failure = .badDefinition origin number (String.ofList line) := by
  constructor
  · intro h
    unfold readLine at h
    split at h
    · cases h
    · next hcontent =>
        split at h
        · cases h
        · next hheader =>
            split at h
            · split at h <;> cases h
            · cases h
            · next scope =>
                split at h
                · cases h
                · next hdefinition =>
                    cases h
                    exact ⟨⟨Bool.eq_false_iff.mpr hcontent, hheader, ⟨scope, rfl⟩, hdefinition⟩,
                      rfl⟩
  · rintro ⟨⟨hcontent, hheader, ⟨scope, rfl⟩, hdefinition⟩, rfl⟩
    simp [readLine, hcontent, hheader, hdefinition]

theorem readLines_cons (origin : Option String) (number : Nat) (place : Place) (p : Profile)
    (line : List Char) (rest : List (List Char)) :
    readLines origin number place p (line :: rest)
      = readLine origin number place p (trim line) >>= fun read =>
          readLines origin (number + 1) read.1 read.2 rest := by
  rw [readLines]
  cases readLine origin number place p (trim line) <;> rfl

theorem exists_badDefinition {origin : Option String} {number : Nat} {place : Place} {p : Profile}
    {lines : List (List Char)} {failure : Failure}
    (h : readLines origin number place p lines = .error failure) :
    ∃ refused line, failure = .badDefinition origin refused line := by
  induction lines generalizing number place p with
  | nil =>
      cases h
  | cons line lines ih =>
      rw [readLines_cons] at h
      cases hline : readLine origin number place p (trim line) with
      | error bad =>
          rw [hline] at h
          cases h
          exact ⟨number, _, (readLine_error_iff.mp hline).2⟩
      | ok read =>
          rw [hline] at h
          exact ih h

end EnvLayers.Profile
