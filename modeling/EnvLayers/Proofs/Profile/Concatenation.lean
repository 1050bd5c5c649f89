import EnvLayers.Proofs.Profile.Sections
import EnvLayers.Proofs.Text.Cut

/-
Module: EnvLayers.Proofs.Profile.Concatenation
Purpose: Reading texts one below the other. Where the lower text starts with a header, it is read as
  it is alone, on top of what the upper one gives: the profile is the upper one with the lower one
  layered on it, and a bad line is refused under the number that it has in the whole text.
Main exports: Profile.IsMerged, Profile.record_update, Profile.readLines_append,
  Profile.StartsWithHeader, Profile.readLines_place, Profile.movedDown, Profile.readLines_below,
  Profile.parse_below, Profile.parse_joined
-/

namespace EnvLayers.Profile

open Text
open OpGroups (merged)

/-! ### Recording and layering -/

/-- The groups of both scopes are merged, so that no pattern has two of them. -/
def IsMerged (p : Profile) : Prop :=
  ∀ scope, ∃ entries, (p.environment scope).groups = merged entries

theorem isMerged_empty : IsMerged empty := by
  intro scope
  refine ⟨[], ?_⟩
  cases scope <;> rfl

theorem IsMerged.record {p : Profile} (h : p.IsMerged) (scope : Scope) (pattern : Option String)
    (op : Op) : (p.record scope pattern op).IsMerged := by
  intro other
  obtain ⟨entries, hentries⟩ := h other
  by_cases hscope : scope = other
  · subst hscope
    exact ⟨_, groups_record hentries pattern op⟩
  · rw [environment_record_of_ne hscope]
    exact ⟨entries, hentries⟩

/-- What is read from a text is merged. -/
theorem isMerged_of_parse {text : String} {p : Profile} (h : parse text = .ok p) : p.IsMerged :=
  fun scope => ⟨_, (sections_of_parse h scope).2⟩

theorem update_empty (p : Profile) : p.update empty = p := by
  simp [update, empty, OpGroups.update, OpGroups.empty]

/-- The groups of a layer and of one on top of it are those of both, merged. -/
theorem groups_update_merged {p q : Profile} {scope : Scope} {entries more : List OpGroups.Entry}
    (hp : (p.environment scope).groups = merged entries)
    (hq : (q.environment scope).groups = merged more) :
    ((p.update q).environment scope).groups = merged (entries ++ more) := by
  have hlayered := OpGroups.merged_append_merged entries more []
  rw [List.append_nil, List.append_nil] at hlayered
  rw [environment_update, OpGroups.groups_update hp, hq, hlayered]

/-- An operation that is recorded in the upper of two layers is recorded in both together. -/
theorem record_update {p q : Profile} (hp : p.IsMerged) (hq : q.IsMerged) (scope : Scope)
    (pattern : Option String) (op : Op) :
    (p.update q).record scope pattern op = p.update (q.record scope pattern op) := by
  refine eq_of_groups_eq ?_ (fun other => ?_) ?_
  · cases scope <;> rfl
  · obtain ⟨entries, hentries⟩ := hp other
    obtain ⟨more, hmore⟩ := hq other
    by_cases hscope : scope = other
    · subst hscope
      rw [groups_record (groups_update_merged hentries hmore),
        groups_update_merged hentries (groups_record hmore pattern op), List.append_assoc]
    · rw [environment_record_of_ne hscope, environment_update, environment_update,
        environment_record_of_ne hscope]
  · cases scope <;> rfl

/-! ### The lines of both texts -/

section Reading

variable {origin : Option String} {number : Nat} {place : Place} {p q : Profile}
  {line : List Char} {first second lines : List (List Char)} {failure : Failure}

/-- After lines that are read, more lines are read on from a place and from what is read by then. -/
theorem readLines_append (h : readLines origin number place p first = .ok q)
    (second : List (List Char)) :
    ∃ place', readLines origin number place p (first ++ second)
      = readLines origin (number + first.length) place' q second := by
  induction first generalizing number place p with
  | nil =>
      cases h
      exact ⟨place, rfl⟩
  | cons line first ih =>
      rw [readLines_cons, bind_ok_iff] at h
      obtain ⟨read, hline, hrest⟩ := h
      obtain ⟨place', heq⟩ := ih hrest
      refine ⟨place', ?_⟩
      rw [List.cons_append, readLines_cons, hline, List.length_cons, ← Nat.add_assoc,
        Nat.add_right_comm]
      exact heq

/-- A bad line is refused whatever follows it. -/
theorem readLines_append_of_error (h : readLines origin number place p first = .error failure)
    (second : List (List Char)) :
    readLines origin number place p (first ++ second) = .error failure := by
  induction first generalizing number place p with
  | nil =>
      cases h
  | cons line first ih =>
      rw [List.cons_append, readLines_cons]
      rw [readLines_cons] at h
      cases hline : readLine origin number place p (trim line) with
      | error refused =>
          rw [hline] at h
          exact h
      | ok read =>
          rw [hline] at h
          exact ih h

/-- The first line that has content, if there is one, is a header. -/
def StartsWithHeader (contents : List (List Char)) : Prop :=
  ∀ line ∈ contents.head?, (Line.section? line).isSome

/-- Lines that start with a header are read alike at any place. -/
theorem readLines_place (h : StartsWithHeader (withContent lines)) (place place' : Place) :
    readLines origin number place p lines = readLines origin number place' p lines := by
  induction lines generalizing number with
  | nil =>
      rfl
  | cons line lines ih =>
      rw [readLines_cons, readLines_cons]
      by_cases hignored : isIgnored (trim line)
      · rw [withContent_cons_of_ignored hignored] at h
        simp only [readLine, if_pos hignored]
        exact ih h
      · rw [withContent_cons (Bool.eq_false_iff.mpr hignored)] at h
        obtain ⟨name, hname⟩ := Option.isSome_iff_exists.mp (h (trim line) rfl)
        simp only [readLine, if_neg hignored, hname]

theorem IsMerged.read {place' : Place} {p' : Profile} (hp : p.IsMerged)
    (h : readLine origin number place p line = .ok (place', p')) : p'.IsMerged := by
  cases readsLine_of_readLine h with
  | ignored _ =>
      exact hp
  | header _ _ =>
      exact hp
  | included _ _ _ _ =>
      intro scope
      obtain ⟨entries, hentries⟩ := hp scope
      refine ⟨entries, ?_⟩
      cases scope <;> exact hentries
  | passed _ _ _ =>
      exact hp
  | defined _ _ _ _ =>
      exact hp.record _ _ _

/-- The failure of lines that are moved down. -/
def movedDown (above : Nat) : Failure → Failure
  | .badDefinition origin number line => .badDefinition origin (number + above) line
  | failure => failure

/-- A line that is moved down and read on top of another profile adds to it what it adds alone, or
is refused under its new number. -/
theorem readLine_below (hp : p.IsMerged) (hq : q.IsMerged) (above : Nat) :
    readLine origin (number + above) place (p.update q) line
      = ((readLine origin number place q line).mapError (movedDown above)).map fun read =>
          (read.1, p.update read.2) := by
  have hinclude : ∀ target,
      ({ p.update q with includes := (p.update q).includes ++ [target] } : Profile)
        = p.update { q with includes := q.includes ++ [target] } := fun target => by
    simp [update]
  unfold readLine
  by_cases hignored : isIgnored line
  · simp only [if_pos hignored]
    rfl
  · simp only [if_neg hignored]
    cases hsection : Line.section? line with
    | some name =>
        rfl
    | none =>
        rcases place with _ | _ | scope
        · cases hincludes : Line.include? line with
          | none =>
              rfl
          | some target =>
              simp only [hinclude]
              rfl
        · rfl
        · cases hdefinition : Line.definition? line with
          | none =>
              rfl
          | some definition =>
              simp only [record_update hp hq]
              rfl

/-- Lines that are moved down and read on top of another profile are read as they are alone, as a
layer on the other profile, or refused at the same line under its new number. -/
theorem readLines_below (hp : p.IsMerged) (hq : q.IsMerged) (above : Nat) :
    readLines origin (number + above) place (p.update q) lines
      = ((readLines origin number place q lines).mapError (movedDown above)).map p.update := by
  induction lines generalizing number place q with
  | nil =>
      rfl
  | cons line lines ih =>
      rw [readLines_cons, readLines_cons, readLine_below hp hq]
      cases hline : readLine origin number place q (trim line) with
      | error failure =>
          rfl
      | ok read =>
          have hrest := @ih (number + 1) read.1 read.2 (hq.read hline)
          rw [Nat.add_right_comm] at hrest
          exact hrest

end Reading

/-! ### Whole texts -/

/-- Of a text that starts with a header, put below another one, nothing counts but what it is read
as alone. -/
theorem parse_below {upper lower : String} (hheader : StartsWithHeader (contentLines lower)) :
    parse (upper ++ "\n" ++ lower) = do
      let p ← parse upper
      let q ← (parse lower).mapError (movedDown (upper.toList.count '\n' + 1))
      return p.update q := by
  have hlines : pieces '\n' (upper ++ "\n" ++ lower).toList
      = pieces '\n' upper.toList ++ pieces '\n' lower.toList := by
    rw [← pieces_append]
    simp
  unfold parse parseText
  rw [hlines]
  cases hupper : readLines none 1 .head empty (pieces '\n' upper.toList) with
  | error failure =>
      rw [readLines_append_of_error hupper]
      rfl
  | ok p =>
      obtain ⟨place, happend⟩ := readLines_append hupper (pieces '\n' lower.toList)
      have hbelow := @readLines_below none 1 .head p empty (pieces '\n' lower.toList)
        (isMerged_of_parse hupper) isMerged_empty (upper.toList.count '\n' + 1)
      rw [update_empty] at hbelow
      rw [happend, length_pieces, readLines_place hheader place .head, hbelow]
      cases readLines none 1 .head empty (pieces '\n' lower.toList) <;> rfl

/-- Putting one text below another is layering what it is read as, if its first line with content is
a header. Where both are read, so is the whole, as the upper profile with the lower one on top, with
its includes and with its groups in their order. Where the upper one is refused, the whole is
refused at the same line under the same number; where only the lower one is, at the same line under
a number that is higher by the lines above. -/
theorem parse_joined {upper lower : String} (hheader : StartsWithHeader (contentLines lower)) :
    (∀ p q, parse upper = .ok p → parse lower = .ok q →
        parse (upper ++ "\n" ++ lower) = .ok (p.update q))
      ∧ (∀ failure, parse upper = .error failure →
        ∃ number line, failure = .badDefinition none number line
          ∧ parse (upper ++ "\n" ++ lower) = .error (.badDefinition none number line))
      ∧ ∀ p failure, parse upper = .ok p → parse lower = .error failure →
        ∃ number line, failure = .badDefinition none number line
          ∧ parse (upper ++ "\n" ++ lower)
            = .error (.badDefinition none (number + (upper.toList.count '\n' + 1)) line) := by
  rw [parse_below hheader]
  refine ⟨fun p q hp hq => ?_, fun failure hp => ?_, fun p failure hp hq => ?_⟩
  · rw [hp, hq]
    rfl
  · obtain ⟨number, line, rfl⟩ := exists_badDefinition hp
    exact ⟨number, line, rfl, by rw [hp]; rfl⟩
  · obtain ⟨number, line, rfl⟩ := exists_badDefinition hq
    exact ⟨number, line, rfl, by rw [hp, hq]; rfl⟩

/-- A text with a definition for all packages. -/
def upperText : String := "include(common)\n[runenv]\nMODE=fast\n"

/-- Two texts that can be put below it, the second one with a line that is no definition. -/
def lowerText : String := "# more\r\n[runenv]\nlib:MODE=safe\nMODE+=last"

def brokenText : String := "[runenv]\nMODE"

theorem parse_joined_texts :
    parse (upperText ++ "\n" ++ lowerText) = .ok { empty with
        includes := ["common"]
        runEnv := ⟨[(none, [.define "MODE" "fast", .append "MODE" "last"]),
          (some "lib", [.define "MODE" "safe"])]⟩ }
      ∧ parse (upperText ++ "\n" ++ brokenText) = .error (.badDefinition none 6 "MODE") := by
  have hupper : parse upperText = .ok { empty with
      includes := ["common"]
      runEnv := ⟨[(none, [.define "MODE" "fast"])]⟩ } := by
    rfl
  have hlower : parse lowerText = .ok { empty with
      runEnv := ⟨[(some "lib", [.define "MODE" "safe"]), (none, [.append "MODE" "last"])]⟩ } := by
    rfl
  have hbroken : parse brokenText = .error (.badDefinition none 2 "MODE") := by
    rfl
  have hlowerFirst : (contentLines lowerText).head? = some "[runenv]".toList := by
    rfl
  have hbrokenFirst : (contentLines brokenText).head? = some "[runenv]".toList := by
    rfl
  have hstarts : ∀ contents : List (List Char), contents.head? = some "[runenv]".toList →
      StartsWithHeader contents := by
    intro contents hfirst line hline
    cases hfirst.symm.trans hline
    decide
  refine ⟨(parse_joined (hstarts _ hlowerFirst)).1 _ _ hupper hlower, ?_⟩
  have hrefused := (parse_joined (hstarts _ hbrokenFirst)).2.2 _ _ hupper hbroken
  obtain ⟨number, line, heq, hjoined⟩ := hrefused
  cases heq
  exact hjoined

end EnvLayers.Profile
