import EnvLayers.Proofs.Environment.Names
import EnvLayers.Proofs.LastSeen
import EnvLayers.Proofs.Profile.Groups

/-
Module: EnvLayers.Proofs.Environment.Precedence
Purpose: Which profile has the last word on a variable. Operations are applied pattern after pattern
  in the order in which the patterns first appear in any profile, so a later profile wins over
  earlier ones under the patterns up to the last one that it resets the variable under, and not over
  what they say under patterns after that one.
Main exports: Profile.opsFor, Profile.matching, Profile.select_compose, Graph.itemsOf,
  Graph.later_takes_precedence, Graph.earlier_pattern_overrides
-/

namespace EnvLayers

namespace Profile

open OpGroups (opsUnder patterns)

/-- What profiles say in a scope under a pattern, in order. -/
def opsFor (profiles : List Profile) (scope : Scope) (pattern : Option String) : List Op :=
  opsUnder pattern (profiles.flatMap fun p => (p.environment scope).groups)

/-- The patterns of profiles in a scope that are absent or match a reference, each where it appears
first. -/
def matching (profiles : List Profile) (scope : Scope) (reference : String) :
    List (Option String) :=
  (patterns (profiles.flatMap fun p => (p.environment scope).groups)).filter
    (·.all (Pattern.applies · reference))

variable {profiles : List Profile} {scope : Scope} {reference : String}

theorem opsFor_append (earlier later : List Profile) (scope : Scope) (pattern : Option String) :
    opsFor (earlier ++ later) scope pattern
      = opsFor earlier scope pattern ++ opsFor later scope pattern := by
  rw [opsFor, List.flatMap_append, OpGroups.opsUnder_append]
  rfl

/-- Composed profiles give a reference what all of them say under each pattern that matches it. -/
theorem select_compose (profiles : List Profile) (scope : Scope) (reference : String) :
    ((compose profiles).environment scope).select reference
      = (matching profiles scope reference).flatMap (opsFor profiles scope) :=
  OpGroups.selectBy_of_merged (groups_compose profiles scope) Pattern.applies reference

/-- What a profile gives to a reference stands under a pattern that matches it. -/
theorem exists_matching_of_mem_select {p : Profile} (hp : p ∈ profiles) {op : Op}
    (hop : op ∈ (p.environment scope).select reference) :
    ∃ pattern ∈ matching profiles scope reference, op ∈ opsFor [p] scope pattern := by
  obtain ⟨entry, hentry, hmem⟩ := List.mem_flatMap.mp hop
  obtain ⟨hgroup, happlies⟩ := List.mem_filter.mp hentry
  refine ⟨entry.1, ?_, ?_⟩
  · refine List.mem_filter.mpr ⟨OpGroups.mem_patterns.mpr ⟨entry.2, ?_⟩, ?_⟩
    · exact List.mem_flatMap.mpr ⟨p, hp, hgroup⟩
    · cases hpattern : entry.1 with
      | none =>
          rfl
      | some pattern =>
          rw [hpattern] at happlies
          exact happlies
  · refine List.mem_flatMap.mpr ⟨entry, List.mem_filter.mpr ⟨?_, decide_eq_true rfl⟩, hmem⟩
    simpa using hgroup

end Profile

namespace Graph

open Profile (opsFor matching)

/-- The entries of a variable in the environment of a consumer. -/
def itemsOf (g : Graph) (consumer : String) (scope : Scope) (profiles : List Profile)
    (name : String) : Outcome (Option (List Item)) :=
  (g.resolve consumer scope profiles).map fun env => (env.find? name).map (·.items)

variable {g : Graph} {consumer name : String} {scope : Scope} {profiles : List Profile} {c : Node}

/-- The entries of a variable are what the sequence of operations makes of it. -/
theorem itemsOf_eq_sequence (hc : g.node? consumer = some c) :
    g.itemsOf consumer scope profiles name
      = (g.sequence c profiles scope).map fun ops =>
          ((Variables.applyAll [] ops).find name).map (·.items) := by
  rw [itemsOf, resolve_eq_sequence, node, hc]
  simp only [bind, Except.bind]
  cases g.sequence c profiles scope <;> rfl

/-- Where the profiles reset a variable, neither the graph nor what the profiles say before shows in
its entries. -/
theorem itemsOf_of_resets (hc : g.node? consumer = some c) {before ops : List Op}
    (hprofiles : profileOps profiles scope c = before ++ ops)
    (hresets : ∃ op ∈ ops, op.name = name ∧ op.resets) :
    g.itemsOf consumer scope profiles name
      = (g.contributions c scope).map fun _ => some (replayed name ops) := by
  rw [itemsOf_eq_sequence hc, sequence_eq, hprofiles]
  cases g.contributions c scope with
  | error failure =>
      rfl
  | ok contributions =>
      simp only [Except.map]
      rw [← List.append_assoc, Variables.items_find_applyAll_of_resets hresets]

/-- The patterns under which profiles say something about a variable, among some patterns. -/
def sayingOn (profiles : List Profile) (scope : Scope) (name : String)
    (among : List (Option String)) : List (Option String) :=
  among.filter fun pattern => opsOn name (opsFor profiles scope pattern) ≠ []

/-- The other patterns can be left out when a variable is looked at. -/
theorem opsOn_flatMap_sayingOn (among : List (Option String)) :
    opsOn name ((sayingOn profiles scope name among).flatMap (opsFor profiles scope))
      = opsOn name (among.flatMap (opsFor profiles scope)) := by
  rw [opsOn_flatMap, opsOn_flatMap]
  exact flatMap_filter_ne_nil (fun pattern => opsOn name (opsFor profiles scope pattern)) among

/-- Profiles that say nothing about a variable can be left out when it is looked at. -/
theorem opsOn_flatMap_opsFor_append {earlier later : List Profile} {among : List (Option String)}
    (h : ∀ pattern ∈ among, ∀ op ∈ opsFor earlier scope pattern, op.name ≠ name) :
    opsOn name (among.flatMap (opsFor (earlier ++ later) scope))
      = opsOn name (among.flatMap (opsFor later scope)) := by
  rw [opsOn_flatMap, opsOn_flatMap]
  refine List.flatMap_congr fun pattern hpattern => ?_
  rw [Profile.opsFor_append, opsOn_append, opsOn_eq_nil (h pattern hpattern), List.nil_append]

/-- Profiles that reset a variable under a pattern give it what they say from there on, whatever
stands before. -/
theorem replayed_matching_of_suffix {reference : String} {pattern : Option String}
    {after : List (Option String)}
    (hresets : ∃ op ∈ opsFor profiles scope pattern, op.name = name ∧ op.resets)
    (hsuffix : pattern :: sayingOn profiles scope name after
      <:+ sayingOn profiles scope name (matching profiles scope reference)) :
    replayed name ((matching profiles scope reference).flatMap (opsFor profiles scope))
      = replayed name (opsFor profiles scope pattern
          ++ after.flatMap (opsFor profiles scope)) := by
  obtain ⟨front, hfront⟩ := hsuffix
  calc replayed name ((matching profiles scope reference).flatMap (opsFor profiles scope))
    _ = replayed name (front.flatMap (opsFor profiles scope)
          ++ (opsFor profiles scope pattern
            ++ (sayingOn profiles scope name after).flatMap (opsFor profiles scope))) := by
      apply replayed_congr
      rw [← opsOn_flatMap_sayingOn, ← hfront, List.flatMap_append, List.flatMap_cons]
    _ = replayed name (opsFor profiles scope pattern
          ++ (sayingOn profiles scope name after).flatMap (opsFor profiles scope)) := by
      apply replayed_append_of_resets
      obtain ⟨op, hop, hop'⟩ := hresets
      exact ⟨op, List.mem_append_left _ hop, hop'⟩
    _ = replayed name (opsFor profiles scope pattern
          ++ after.flatMap (opsFor profiles scope)) := by
      apply replayed_congr
      rw [opsOn_append, opsOn_flatMap_sayingOn, opsOn_append]

/-- Of a list of profiles, what the last one says under a pattern and all of them say under the
patterns after it decides a variable that it resets there. -/
theorem itemsOf_of_split {earlier : List Profile} {later : Profile}
    {before after : List (Option String)} {pattern : Option String} (hc : g.node? consumer = some c)
    (hsplit : matching (earlier ++ [later]) scope c.name = before ++ pattern :: after)
    (hresets : ∃ op ∈ opsFor [later] scope pattern, op.name = name ∧ op.resets) :
    g.itemsOf consumer scope (earlier ++ [later]) name
      = (g.contributions c scope).map fun _ =>
          some (replayed name (opsFor [later] scope pattern
            ++ after.flatMap (opsFor (earlier ++ [later]) scope))) := by
  have hprofiles : profileOps (earlier ++ [later]) scope c
      = (before.flatMap (opsFor (earlier ++ [later]) scope) ++ opsFor earlier scope pattern)
        ++ (opsFor [later] scope pattern
          ++ after.flatMap (opsFor (earlier ++ [later]) scope)) := by
    rw [profileOps, Profile.select_compose, hsplit, List.flatMap_append, List.flatMap_cons,
      Profile.opsFor_append]
    simp only [List.append_assoc]
  apply itemsOf_of_resets hc hprofiles
  obtain ⟨op, hop, hop'⟩ := hresets
  exact ⟨op, List.mem_append_left _ hop, hop'⟩

/-- A later profile that resets a variable for the consumer has the last word on it under the
patterns up to `pattern`, the last one in the order of first appearance under which it does: the
entries of the variable are what the later profile says under that pattern, and all profiles under
the patterns after it. So where the earlier profiles say nothing about the variable under these, and
the later profile alone has its own patterns from there on in the same order, the earlier profiles
make no difference. -/
theorem later_takes_precedence {earlier : List Profile} {later : Profile}
    (hc : g.node? consumer = some c)
    (hresets : ∃ op ∈ (later.environment scope).select c.name, op.name = name ∧ op.resets) :
    ∃ before pattern after,
      matching (earlier ++ [later]) scope c.name = before ++ pattern :: after
        ∧ (∃ op ∈ opsFor [later] scope pattern, op.name = name ∧ op.resets)
        ∧ (∀ p ∈ after, ¬ ∃ op ∈ opsFor [later] scope p, op.name = name ∧ op.resets)
        ∧ g.itemsOf consumer scope (earlier ++ [later]) name
          = (g.contributions c scope).map (fun _ =>
              some (replayed name (opsFor [later] scope pattern
                ++ after.flatMap (opsFor (earlier ++ [later]) scope))))
        ∧ ((∀ p ∈ after, ∀ op ∈ opsFor earlier scope p, op.name ≠ name) →
          pattern :: sayingOn [later] scope name after
            <:+ sayingOn [later] scope name (matching [later] scope c.name) →
          g.itemsOf consumer scope (earlier ++ [later]) name
            = g.itemsOf consumer scope [later] name) := by
  obtain ⟨op, hop, hop'⟩ := hresets
  have hexists : ∃ p ∈ matching (earlier ++ [later]) scope c.name,
      ∃ op ∈ opsFor [later] scope p, op.name = name ∧ op.resets := by
    obtain ⟨p, hp, hmem⟩ := Profile.exists_matching_of_mem_select
      (List.mem_append_right earlier List.mem_cons_self) hop
    exact ⟨p, hp, op, hmem, hop'⟩
  obtain ⟨before, pattern, after, hsplit, hpattern, hafter⟩ := exists_split_last hexists
  have hitems := itemsOf_of_split hc hsplit hpattern
  refine ⟨before, pattern, after, hsplit, hpattern, hafter, hitems, ?_⟩
  intro hsilent hsuffix
  have hselected : profileOps [later] scope c
      = [] ++ (matching [later] scope c.name).flatMap (opsFor [later] scope) :=
    Profile.select_compose [later] scope c.name
  have hlater : ∃ op ∈ (matching [later] scope c.name).flatMap (opsFor [later] scope),
      op.name = name ∧ op.resets := by
    obtain ⟨p, hp, hmem⟩ := Profile.exists_matching_of_mem_select List.mem_cons_self hop
    exact ⟨op, List.mem_flatMap.mpr ⟨p, hp, hmem⟩, hop'⟩
  have hsame : replayed name (opsFor [later] scope pattern
        ++ after.flatMap (opsFor (earlier ++ [later]) scope))
      = replayed name (opsFor [later] scope pattern ++ after.flatMap (opsFor [later] scope)) := by
    apply replayed_congr
    rw [opsOn_append, opsOn_flatMap_opsFor_append hsilent, opsOn_append]
  rw [hitems, itemsOf_of_resets hc hselected hlater, hsame,
    replayed_matching_of_suffix hpattern hsuffix]

/-- A mode for all packages, and another one for the program. -/
def pinned : Profile :=
  { Profile.empty with
    runEnv := ⟨[(none, [.define "MODE" "default"]), (some "app", [.define "MODE" "fast"])]⟩ }

/-- A mode for the packages of one pattern. -/
def settled (pattern : Option String) : Profile :=
  { Profile.empty with runEnv := ⟨[(pattern, [.define "MODE" "safe"])]⟩ }

theorem parse_pinned : Profile.parse "[runenv]\nMODE=default\napp:MODE=fast\n" = .ok pinned := by
  cbv

/-- The later profile speaks under the pattern that stands last, and wins. -/
theorem later_takes_precedence_pinned :
    lone.node? "app" = some (Node.ofName "app")
      ∧ (∃ op ∈ ((settled (some "app")).environment .run).select "app",
        op.name = "MODE" ∧ op.resets)
      ∧ lone.itemsOf "app" .run [pinned, settled (some "app")] "MODE"
        = lone.itemsOf "app" .run [settled (some "app")] "MODE" := by
  have hmatching : matching ([pinned] ++ [settled (some "app")]) .run "app"
      = [none, some "app"] := by
    cbv
  have happ : lone.node? "app" = some (Node.ofName "app") := by
    decide
  have hresets : ∃ op ∈ ((settled (some "app")).environment .run).select "app",
      op.name = "MODE" ∧ op.resets :=
    ⟨.define "MODE" "safe", by decide +kernel, rfl, rfl⟩
  obtain ⟨before, pattern, after, hsplit, ⟨op, hop, -⟩, -, -, hsame⟩ :=
    @later_takes_precedence lone "app" "MODE" .run (Node.ofName "app") [pinned]
      (settled (some "app")) happ hresets
  have hpattern : pattern = some "app" := by
    by_contra hne
    simp [opsFor, OpGroups.opsUnder, settled, Profile.environment, Ne.symm hne] at hop
  have hafter : after = [] := by
    have hsplit' := hmatching.symm.trans hsplit
    rw [hpattern] at hsplit'
    rcases before with _ | ⟨first, _ | ⟨second, before⟩⟩ <;> simp_all
  refine ⟨happ, hresets, hsame ?_ ?_⟩
  · rw [hafter]
    exact List.forall_mem_nil _
  · rw [hpattern, hafter]
    decide +kernel

/-- Under a pattern that earlier profiles put before another one, a later profile does not have the
last word: the mode that an earlier profile gives to the program overrides the one that a later
profile gives to all packages. -/
theorem earlier_pattern_overrides :
    Profile.parse "[runenv]\nMODE=default\napp:MODE=fast\n" = .ok pinned
      ∧ Profile.parse "[runenv]\nMODE=safe\n" = .ok (settled none)
      ∧ lone.node? "app" = some (Node.ofName "app")
      ∧ (∃ op ∈ ((settled none).environment .run).select "app", op.name = "MODE" ∧ op.resets)
      ∧ lone.itemsOf "app" .run [pinned, settled none] "MODE" = .ok (some [.value "fast"])
      ∧ lone.itemsOf "app" .run [settled none] "MODE" = .ok (some [.value "safe"]) := by
  refine ⟨parse_pinned, ?_, ?_, ?_, ?_, ?_⟩
  · cbv
  · decide
  · exact ⟨.define "MODE" "safe", by decide, rfl, rfl⟩
  · cbv
  · cbv

end Graph

end EnvLayers
