import EnvLayers.Profile.Basic
import EnvLayers.Proofs.FirstSeen

/-
Module: EnvLayers.Proofs.Profile.Groups
Purpose: Recording, layering and composing as one thing: entries of a pattern and operations are
  merged to one group for each pattern. Merging twice is merging once, so it does not matter which
  entries were merged before.
Main exports: OpGroups.opsUnder, OpGroups.patterns, OpGroups.merged, OpGroups.extendGroup_merged,
  OpGroups.selectBy_of_merged, Profile.groups_compose, Profile.compose_map_compose
-/

namespace EnvLayers

namespace OpGroups

/-- Operations under a pattern. -/
abbrev Entry := Option String × List Op

/-- The operations of all entries under a pattern, in order. -/
def opsUnder (pattern : Option String) (entries : List Entry) : List Op :=
  (entries.filter (·.1 = pattern)).flatMap (·.2)

/-- The patterns of entries, each where it appears first. -/
def patterns (entries : List Entry) : List (Option String) := newTo [] (entries.map (·.1))

/-- Entries merged to one group for each pattern. -/
def merged (entries : List Entry) : List Entry :=
  (patterns entries).map fun pattern => (pattern, opsUnder pattern entries)

variable {pattern : Option String} {entries : List Entry}

theorem opsUnder_append (pattern : Option String) (first second : List Entry) :
    opsUnder pattern (first ++ second) = opsUnder pattern first ++ opsUnder pattern second := by
  simp [opsUnder]

theorem opsUnder_singleton (pattern key : Option String) (ops : List Op) :
    opsUnder pattern [(key, ops)] = if pattern = key then ops else [] := by
  by_cases h : key = pattern
  · simp [opsUnder, h]
  · simp [opsUnder, h, Ne.symm h]

theorem mem_patterns : pattern ∈ patterns entries ↔ ∃ ops, (pattern, ops) ∈ entries := by
  simp [patterns, -nil_newTo, mem_newTo]

theorem opsUnder_of_not_mem (h : pattern ∉ patterns entries) : opsUnder pattern entries = [] := by
  have hnone : entries.filter (·.1 = pattern) = [] := by
    rw [List.filter_eq_nil_iff]
    intro entry hentry heq
    apply h
    exact mem_patterns.mpr ⟨entry.2, of_decide_eq_true heq ▸ hentry⟩
  rw [opsUnder, hnone, List.flatMap_nil]

theorem patterns_append (first second : List Entry) :
    patterns (first ++ second) = patterns first ++ newTo (patterns first) (second.map (·.1)) := by
  rw [patterns, List.map_append, newTo_append, List.nil_append, ← patterns]
  congr 1
  apply newTo_congr
  intro key
  simp [patterns, -nil_newTo, mem_newTo]

theorem nodup_patterns (entries : List Entry) : (patterns entries).Nodup :=
  nodup_newTo [] _

/-- The groups are determined by the order of the patterns and what stands under each. -/
theorem merged_congr {entries' : List Entry} (hpatterns : patterns entries' = patterns entries)
    (hops : ∀ pattern, opsUnder pattern entries' = opsUnder pattern entries) :
    merged entries' = merged entries := by
  unfold merged
  rw [hpatterns]
  apply List.map_congr_left
  intro pattern _
  rw [hops]

/-! ### Merging once more -/

theorem map_fst_merged (entries : List Entry) : (merged entries).map (·.1) = patterns entries := by
  rw [merged, List.map_map]
  exact List.map_id _

/-- Of groups with one key each, one stands under a pattern, or none. -/
theorem opsUnder_map_keys (pattern : Option String) (under : Option String → List Op)
    {keys : List (Option String)} (hnodup : keys.Nodup) :
    opsUnder pattern (keys.map fun key => (key, under key))
      = if pattern ∈ keys then under pattern else [] := by
  induction keys with
  | nil =>
      rfl
  | cons key keys ih =>
      obtain ⟨hnew, hrest⟩ := List.nodup_cons.mp hnodup
      rw [List.map_cons, ← List.singleton_append, opsUnder_append, opsUnder_singleton, ih hrest]
      by_cases h : pattern = key
      · simp [h, hnew]
      · simp [h]

theorem opsUnder_merged (pattern : Option String) (entries : List Entry) :
    opsUnder pattern (merged entries) = opsUnder pattern entries := by
  rw [merged, opsUnder_map_keys pattern (opsUnder · entries) (nodup_patterns entries)]
  split
  · rfl
  · next hnone =>
      exact (opsUnder_of_not_mem hnone).symm

/-- Of groups with one key each, adding to a group changes the one with the pattern, or makes a new
one at the end. -/
theorem extendGroup_map_keys (pattern : Option String) (ops : List Op)
    {under : Option String → List Op} {keys : List (Option String)} (hnodup : keys.Nodup)
    (hnone : pattern ∉ keys → under pattern = []) :
    extendGroup pattern ops (keys.map fun key => (key, under key))
      = (keys ++ newTo keys [pattern]).map fun key =>
          (key, under key ++ if key = pattern then ops else []) := by
  induction keys with
  | nil =>
      simp [extendGroup, newTo_cons_of_not_mem, hnone]
  | cons key keys ih =>
      obtain ⟨hnew, hrest⟩ := List.nodup_cons.mp hnodup
      by_cases h : key = pattern
      · -- no later group has the pattern, so the others stay
        subst h
        have hsame : keys.map (fun other => (other, under other))
            = keys.map fun other => (other, under other ++ if other = key then ops else []) := by
          apply List.map_congr_left
          intro other hother
          have hne : other ≠ key := fun heq => hnew (heq ▸ hother)
          rw [if_neg hne, List.append_nil]
        rw [newTo_cons_of_mem List.mem_cons_self, newTo_nil, List.append_nil, List.map_cons,
          extendGroup, if_pos rfl, List.map_cons, if_pos rfl, hsame]
      · have hold : newTo (key :: keys) [pattern] = newTo keys [pattern] := by
          rw [newTo, newTo]
          congr 1
          apply List.filter_congr
          intro other hother
          rw [List.mem_singleton.mp hother]
          simp [Ne.symm h]
        have hrestNone : pattern ∉ keys → under pattern = [] := by
          intro hkeys
          apply hnone
          simp [hkeys, Ne.symm h]
        rw [List.map_cons, extendGroup, if_neg h, ih hrest hrestNone, hold, List.cons_append,
          List.map_cons, if_neg h, List.append_nil]

/-- Adding to a group is merging one more entry. -/
theorem extendGroup_merged (pattern : Option String) (ops : List Op) (entries : List Entry) :
    extendGroup pattern ops (merged entries) = merged (entries ++ [(pattern, ops)]) := by
  have hkeys := @extendGroup_map_keys pattern ops (opsUnder · entries) _ (nodup_patterns entries)
    opsUnder_of_not_mem
  rw [merged, hkeys, merged, patterns_append]
  simp only [opsUnder_append, opsUnder_singleton, List.map_cons, List.map_nil]

theorem foldl_extendGroup_merged (entries more : List Entry) :
    more.foldl (fun groups entry => extendGroup entry.1 entry.2 groups) (merged entries)
      = merged (entries ++ more) := by
  induction more generalizing entries with
  | nil =>
      rw [List.foldl_nil, List.append_nil]
  | cons entry more ih =>
      rw [List.foldl_cons, extendGroup_merged, ih, List.append_assoc, List.singleton_append]

/-- Entries that were merged before are merged as the entries that they come from. -/
theorem merged_append_merged (first second third : List Entry) :
    merged (first ++ merged second ++ third) = merged (first ++ second ++ third) := by
  have hboth : merged (first ++ merged second) = merged (first ++ second) := by
    apply merged_congr
    · rw [patterns_append, patterns_append, map_fst_merged]
      congr 1
      exact newTo_newTo_nil _ _
    · intro pattern
      rw [opsUnder_append, opsUnder_append, opsUnder_merged]
  rw [← foldl_extendGroup_merged, hboth, foldl_extendGroup_merged]

theorem merged_flatMap_merged {α : Type} (entriesOf : α → List Entry) (xs : List α) :
    merged (xs.flatMap fun x => merged (entriesOf x)) = merged (xs.flatMap entriesOf) := by
  have hall : ∀ first, merged (first ++ xs.flatMap fun x => merged (entriesOf x))
      = merged (first ++ xs.flatMap entriesOf) := by
    induction xs with
    | nil =>
        intro first
        rfl
    | cons x xs ih =>
        intro first
        rw [List.flatMap_cons, List.flatMap_cons, ← List.append_assoc, ih, merged_append_merged,
          List.append_assoc]
  exact hall []

/-! ### Layering -/

theorem groups_update {g : OpGroups} (h : g.groups = merged entries) (other : OpGroups) :
    (g.update other).groups = merged (entries ++ other.groups) := by
  rw [update, h]
  exact foldl_extendGroup_merged entries other.groups

theorem groups_foldl_update (layers : List OpGroups) :
    (layers.foldl update .empty).groups = merged (layers.flatMap (·.groups)) := by
  have hlayer : ∀ (g : OpGroups) (entries : List Entry), g.groups = merged entries →
      (layers.foldl update g).groups = merged (entries ++ layers.flatMap (·.groups)) := by
    induction layers with
    | nil =>
        intro g entries h
        simpa using h
    | cons layer layers ih =>
        intro g entries h
        rw [List.foldl_cons, ih _ _ (groups_update h layer), List.flatMap_cons, List.append_assoc]
  exact hlayer .empty [] rfl

/-! ### Selecting -/

/-- Of merged entries a reference selects, pattern after pattern, all that stands under a pattern
that applies to it. The absent pattern applies to everything. -/
theorem selectBy_of_merged {g : OpGroups} (h : g.groups = merged entries)
    (holds : String → String → Bool) (reference : String) :
    g.selectBy holds reference
      = ((patterns entries).filter (·.all (holds · reference))).flatMap (opsUnder · entries) := by
  have happlies : applies holds reference = Option.all (holds · reference) := by
    funext pattern
    cases pattern <;> rfl
  rw [selectBy, h, merged, List.filter_map, List.flatMap_map, happlies]
  rfl

end OpGroups

namespace Profile

open OpGroups (merged)

/-- Profiles are the same when their includes, files and groups of both scopes are. -/
theorem eq_of_groups_eq {p q : Profile} (hincludes : p.includes = q.includes)
    (hgroups : ∀ scope, (p.environment scope).groups = (q.environment scope).groups)
    (hfiles : p.sourceFiles = q.sourceFiles) : p = q := by
  obtain ⟨pIncludes, ⟨pBuild⟩, ⟨pRun⟩, pFiles⟩ := p
  obtain ⟨qIncludes, ⟨qBuild⟩, ⟨qRun⟩, qFiles⟩ := q
  cases hincludes
  cases hfiles
  cases hgroups .build
  cases hgroups .run
  rfl

theorem environment_update (p q : Profile) (scope : Scope) :
    (p.update q).environment scope = (p.environment scope).update (q.environment scope) := by
  cases scope <;> rfl

/-- Of composed profiles, each scope has its own sections, layered in order. -/
theorem environment_compose (profiles : List Profile) (scope : Scope) :
    (compose profiles).environment scope
      = (profiles.map (·.environment scope)).foldl OpGroups.update .empty := by
  have hlayer : ∀ p : Profile, (profiles.foldl update p).environment scope
      = (profiles.map (·.environment scope)).foldl OpGroups.update (p.environment scope) := by
    induction profiles with
    | nil =>
        exact fun _ => rfl
    | cons q profiles ih =>
        intro p
        rw [List.foldl_cons, ih, environment_update, List.map_cons, List.foldl_cons]
  have hempty : Profile.empty.environment scope = .empty := by
    cases scope <;> rfl
  rw [compose, hlayer, hempty]

/-- The groups of composed profiles are those of all of them, merged. -/
theorem groups_compose (profiles : List Profile) (scope : Scope) :
    ((compose profiles).environment scope).groups
      = merged (profiles.flatMap fun p => (p.environment scope).groups) := by
  rw [environment_compose, OpGroups.groups_foldl_update, List.flatMap_map]

/-- A list that layering appends to is listed profile after profile. -/
theorem flatMap_of_update {α : Type} {listed : Profile → List α} (hempty : listed empty = [])
    (hupdate : ∀ p q, listed (p.update q) = listed p ++ listed q) (profiles : List Profile) :
    listed (compose profiles) = profiles.flatMap listed := by
  have hlayer : ∀ p, listed (profiles.foldl update p) = listed p ++ profiles.flatMap listed := by
    induction profiles with
    | nil =>
        intro p
        exact (List.append_nil _).symm
    | cons q profiles ih =>
        intro p
        rw [List.foldl_cons, ih, hupdate, List.flatMap_cons, List.append_assoc]
  rw [compose, hlayer, hempty, List.nil_append]

theorem includes_compose (profiles : List Profile) :
    (compose profiles).includes = profiles.flatMap (·.includes) :=
  flatMap_of_update rfl (fun _ _ => rfl) profiles

theorem sourceFiles_compose (profiles : List Profile) :
    (compose profiles).sourceFiles = profiles.flatMap (·.sourceFiles) :=
  flatMap_of_update rfl (fun _ _ => rfl) profiles

/-- Profiles that were composed before are composed as the profiles that they come from. -/
theorem compose_append_compose (first second third : List Profile) :
    compose (first ++ compose second :: third) = compose (first ++ second ++ third) := by
  apply eq_of_groups_eq
  · simp [includes_compose]
  · intro scope
    simp only [groups_compose, List.flatMap_append, List.flatMap_cons]
    rw [← List.append_assoc, OpGroups.merged_append_merged]
  · simp [sourceFiles_compose]

/-- Composing lists of profiles before they are composed with each other changes nothing. -/
theorem compose_map_compose (lists : List (List Profile)) (last : List Profile) :
    compose (lists.map compose ++ last) = compose (lists.flatten ++ last) := by
  have hall : ∀ first, compose (first ++ lists.map compose ++ last)
      = compose (first ++ lists.flatten ++ last) := by
    induction lists with
    | nil =>
        intro first
        rfl
    | cons profiles lists ih =>
        intro first
        calc compose (first ++ (profiles :: lists).map compose ++ last)
          _ = compose (first ++ profiles ++ (lists.map compose ++ last)) := by
            rw [List.map_cons, List.append_assoc, List.cons_append, compose_append_compose]
          _ = compose (first ++ (profiles :: lists).flatten ++ last) := by
            rw [← List.append_assoc, ih, List.flatten_cons, ← List.append_assoc]
  exact hall []

end Profile

end EnvLayers
