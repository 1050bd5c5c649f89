import EnvLayers.Proofs.Profile.Definition
import EnvLayers.Proofs.Profile.Read

/-
Module: EnvLayers.Proofs.Profile.Names
Purpose: Which names the operations of profiles can have. A definition takes any name without
  blanks, equals signs and colons, and reading, layering and selecting operations adds no other.
Main exports: Line.exists_definition_iff, OpGroups.Forall, Profile.Forall,
  Profile.Forall.compose, Profile.forall_parse
-/

namespace EnvLayers

/-! ### The names of definitions -/

namespace Line

theorem isName_of_definition? {line : List Char} {pattern : Option String} {op : Op}
    (h : definition? line = some (pattern, op)) : IsName op.name :=
  (isDefinition_of_definition? h).name

/-- The names that lines define. -/
theorem exists_definition_iff {name : String} :
    (∃ line pattern op, definition? line = some (pattern, op) ∧ op.name = name) ↔ IsName name := by
  constructor
  · rintro ⟨line, pattern, op, h, rfl⟩
    exact isName_of_definition? h
  · intro h
    have hop : IsDefinition none (.unset name) := ⟨nofun, h, trivial⟩
    exact ⟨_, none, .unset name, definition?_print hop, rfl⟩

end Line

/-! ### Operations of profiles -/

/-- Every operation of the groups has a property. -/
def OpGroups.Forall (P : Op → Prop) (g : OpGroups) : Prop :=
  ∀ entry ∈ g.groups, ∀ op ∈ entry.2, P op

namespace OpGroups.Forall

variable {P : Op → Prop} {g other : OpGroups}

theorem empty : OpGroups.empty.Forall P := by
  intro entry hentry
  cases hentry

theorem extendGroup {groups : List (Option String × List Op)} {ops : List Op}
    (hgroups : ∀ entry ∈ groups, ∀ op ∈ entry.2, P op) (hops : ∀ op ∈ ops, P op)
    (pattern : Option String) :
    ∀ entry ∈ OpGroups.extendGroup pattern ops groups, ∀ op ∈ entry.2, P op := by
  induction groups with
  | nil =>
      simpa [OpGroups.extendGroup] using hops
  | cons first rest ih =>
      rw [List.forall_mem_cons] at hgroups
      unfold OpGroups.extendGroup
      split
      · exact List.forall_mem_cons.mpr
          ⟨List.forall_mem_append.mpr ⟨hgroups.1, hops⟩, hgroups.2⟩
      · exact List.forall_mem_cons.mpr ⟨hgroups.1, ih hgroups.2⟩

theorem push (h : g.Forall P) {op : Op} (hop : P op) (pattern : Option String) :
    (g.push pattern op).Forall P :=
  extendGroup h (List.forall_mem_singleton.mpr hop) pattern

theorem update (h : g.Forall P) (hother : other.Forall P) : (g.update other).Forall P := by
  have hlayer : ∀ entries groups : List (Option String × List Op),
      (∀ entry ∈ entries, ∀ op ∈ entry.2, P op) → (∀ entry ∈ groups, ∀ op ∈ entry.2, P op) →
      ∀ entry ∈ entries.foldl (fun groups entry => OpGroups.extendGroup entry.1 entry.2 groups)
        groups, ∀ op ∈ entry.2, P op := by
    intro entries
    induction entries with
    | nil =>
        exact fun _ _ hgroups => hgroups
    | cons entry entries ih =>
        intro groups hentries hgroups
        obtain ⟨hfirst, hrest⟩ := List.forall_mem_cons.mp hentries
        exact ih _ hrest (extendGroup hgroups hfirst entry.1)
  exact hlayer other.groups g.groups hother h

theorem select (h : g.Forall P) (reference : String) : ∀ op ∈ g.select reference, P op := by
  intro op hop
  obtain ⟨entry, hentry, hmem⟩ := List.mem_flatMap.mp hop
  exact h entry (List.mem_of_mem_filter hentry) op hmem

end OpGroups.Forall

/-- Every operation of the profile has a property. -/
def Profile.Forall (P : Op → Prop) (p : Profile) : Prop :=
  ∀ scope, (p.environment scope).Forall P

namespace Profile.Forall

variable {P : Op → Prop} {p other : Profile}

theorem empty : Profile.empty.Forall P := by
  intro scope
  cases scope <;> exact OpGroups.Forall.empty

theorem record (h : p.Forall P) {op : Op} (hop : P op) (scope : Scope)
    (pattern : Option String) : (p.record scope pattern op).Forall P := by
  intro other
  cases scope <;> cases other
  · exact (h .build).push hop pattern
  · exact h .run
  · exact h .build
  · exact (h .run).push hop pattern

theorem update (h : p.Forall P) (hother : other.Forall P) : (p.update other).Forall P := by
  intro scope
  cases scope with
  | build =>
      exact (h .build).update (hother .build)
  | run =>
      exact (h .run).update (hother .run)

theorem compose {profiles : List Profile} (h : ∀ p ∈ profiles, p.Forall P) :
    (Profile.compose profiles).Forall P := by
  have hlayer : ∀ start : Profile, start.Forall P →
      (profiles.foldl Profile.update start).Forall P := by
    induction profiles with
    | nil =>
        exact fun _ hstart => hstart
    | cons p rest ih =>
        intro start hstart
        obtain ⟨hp, hrest⟩ := List.forall_mem_cons.mp h
        exact ih hrest _ (hstart.update hp)
  exact hlayer _ empty

end Profile.Forall

/-! ### Reading -/

namespace Profile

variable {origin : Option String} {number : Nat} {place place' : Place} {p q : Profile}

/-- A line adds no operation but the one that it defines. -/
theorem forall_readLine {P : Op → Prop} {line : List Char}
    (hline : ∀ pattern op, Line.definition? line = some (pattern, op) → P op)
    (hp : p.Forall P) (h : readLine origin number place p line = .ok (place', q)) :
    q.Forall P := by
  cases readsLine_of_readLine h with
  | ignored =>
      exact hp
  | header =>
      exact hp
  | included =>
      exact hp
  | passed =>
      exact hp
  | defined _ _ _ hdefinition =>
      exact hp.record (hline _ _ hdefinition) _ _

theorem forall_readLines {P : Op → Prop}
    (hline : ∀ line pattern op, Line.definition? line = some (pattern, op) → P op)
    {lines : List (List Char)} (hp : p.Forall P)
    (h : readLines origin number place p lines = .ok q) : q.Forall P := by
  induction lines generalizing number place p with
  | nil =>
      cases h
      exact hp
  | cons line rest ih =>
      unfold readLines at h
      split at h
      · cases h
      · next hread =>
          exact ih (forall_readLine (hline _) hp hread) h

/-- The operations of a profile have the names of definitions. -/
theorem forall_parse {text : String} (h : parse text = .ok p) :
    p.Forall fun op => Line.IsName op.name :=
  forall_readLines (fun _ _ _ => Line.isName_of_definition?) .empty h

end Profile

end EnvLayers
