import EnvLayers.Environment.Resolve
import EnvLayers.Proofs.Profile.Includes

/-
Module: EnvLayers.Proofs.Environment.Grouping
Purpose: Profiles that are composed before they are listed. However a list of profiles is grouped,
  it composes to the same profile, and gives a consumer the same environment; so an include is worth
  the same as listing the included files in front of the one that names them.
Main exports: Profile.Merges, Profile.Merges.compose_eq, Graph.resolve_of_compose_eq,
  Graph.resolve_regrouped
-/

namespace EnvLayers

/-- The profiles come from a list by composing a part of it beforehand, any number of times: parts
beside each other, parts within parts, and empty ones. -/
inductive Profile.Merges (listed : List Profile) : List Profile → Prop where
  | listed : Merges listed listed
  | merge (before part after : List Profile) (h : Merges listed (before ++ part ++ after)) :
      Merges listed (before ++ Profile.compose part :: after)

namespace Profile.Merges

variable {listed profiles : List Profile}

theorem compose_eq (h : Merges listed profiles) : compose profiles = compose listed := by
  induction h with
  | listed =>
      rfl
  | merge before part after _ ih =>
      rw [compose_append_compose, ih]

/-- A list can be composed as a whole. -/
theorem whole (profiles : List Profile) : Merges profiles [compose profiles] :=
  .merge [] profiles [] (by simpa using .listed)

end Profile.Merges

namespace Graph

variable {g : Graph} {consumer : String} {scope : Scope} {profiles others : List Profile}

/-- An environment depends on the profiles by what they compose to. -/
theorem resolve_of_compose_eq (h : Profile.compose profiles = Profile.compose others) :
    g.resolve consumer scope profiles = g.resolve consumer scope others := by
  simp only [resolve, profileOps, h]

theorem resolve_of_merges {listed : List Profile} (h : Profile.Merges listed profiles) :
    g.resolve consumer scope profiles = g.resolve consumer scope listed :=
  resolve_of_compose_eq h.compose_eq

/-- Composition does not depend on how profiles are grouped, and neither does an environment: any
parts of the list can be composed beforehand, the whole list to a single profile, and a profile that
is loaded stands for its own file and the included ones, each of them listed alone. -/
theorem resolve_regrouped (g : Graph) (consumer : String) (scope : Scope) :
    (∀ lists : List (List Profile),
        Profile.compose (lists.map Profile.compose) = Profile.compose lists.flatten)
      ∧ (∀ profiles, g.resolve consumer scope [Profile.compose profiles]
        = g.resolve consumer scope profiles)
      ∧ (∀ listed profiles, Profile.Merges listed profiles →
        Profile.compose profiles = Profile.compose listed
          ∧ g.resolve consumer scope profiles = g.resolve consumer scope listed)
      ∧ ∀ (s : ProfileSearch) (path : String) (p : Profile), Profile.load s path = .ok p →
        ∃ tree : IncludeTree, tree.Spells s path
          ∧ ∀ before after, g.resolve consumer scope (before ++ p :: after)
            = g.resolve consumer scope (before ++ tree.postorder ++ after) := by
  refine ⟨?_, ?_, ?_, ?_⟩
  · intro lists
    simpa using Profile.compose_map_compose lists []
  · intro profiles
    exact resolve_of_merges (.whole profiles)
  · intro listed profiles h
    exact ⟨h.compose_eq, resolve_of_merges h⟩
  · intro s path p h
    obtain ⟨tree, htree, rfl⟩ := Profile.exists_tree_of_loadBelow h
    refine ⟨tree, htree, fun before after => ?_⟩
    exact resolve_of_merges (.merge before tree.postorder after .listed)

end Graph

end EnvLayers
