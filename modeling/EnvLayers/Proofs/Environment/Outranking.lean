import EnvLayers.Proofs.Environment.Shadowing
import EnvLayers.Proofs.Graph.Depth

/-
Module: EnvLayers.Proofs.Environment.Outranking
Purpose: Which of two packages wins where a consumer is run, when one of them is a host package and
  the other is there for the tests alone. Depth decides first: what a longer walk leads to loses,
  of whatever kind it is. Only at the same depth does a host package come before the tests, unless
  packages of the tests lead to it as well.
Main exports: Graph.runOrder, Graph.Outranks, Graph.TestOnly, Graph.Hides,
  Graph.host_outranks_test_iff, Graph.shallow_test_overrides
-/

namespace EnvLayers.Graph

open Relation (TransGen)

/-- The packages that a consumer is run with, in priority order. There are none where it cannot be
run. -/
def runOrder (g : Graph) (consumer : String) : List String :=
  match (g.node consumer).bind g.runtime with
  | .ok nodes => nodes.map (·.id)
  | .error _ => []

/-- Where a consumer is run, the operations of one package are applied after those of another. -/
def Outranks (g : Graph) (consumer m n : String) : Prop :=
  (g.runOrder consumer).idxOf m < (g.runOrder consumer).idxOf n

/-- A consumer is run with the package because of its tests alone. -/
def TestOnly (g : Graph) (consumer id : String) : Prop :=
  g.IsHost consumer .run id ∧ ¬ g.IsHost consumer .build id

/-- In the environment that a consumer is run in, whatever one package defines or unsets shows
nothing of another one, whatever parts that has. -/
def Hides (g : Graph) (consumer : String) (profiles : List Profile) (m n : String) : Prop :=
  ∀ node, g.node? m = some node →
    ∀ name, (∃ op ∈ node.runEnv, op.name = name ∧ op.resets) →
      ∀ parts, (g.withParts n parts).itemsOf consumer .run profiles name
        = g.itemsOf consumer .run profiles name

variable {g : Graph} {consumer h t m n : String} {profiles : List Profile} {c : Node}
  {nodes : List Node} {env : Environment}

/-! ### The order of a run -/

theorem runOrder_eq (hc : g.node? consumer = some c) (hnodes : g.runtime c = .ok nodes) :
    g.runOrder consumer = nodes.map (·.id) := by
  simp only [runOrder, node, hc, Except.bind, hnodes]

/-- The order of a run that succeeds lists what the requirements lead to, and breaks ties. -/
theorem exists_runOrder_of_resolve (hok : g.resolve consumer .run profiles = .ok env) :
    ∃ c nodes first rest, g.node? consumer = some c ∧ g.runtime c = .ok nodes
      ∧ g.runOrder consumer = first ++ rest ∧ nodes.map (·.id) = first ++ rest
      ∧ g.TieBroken isHostEdge (g.hostRoots consumer .run) first rest
      ∧ g.Orders isHostEdge (g.hostRoots consumer .run) nodes := by
  obtain ⟨c, ops, hc, hops, -⟩ := exists_sequence_of_resolve hok
  obtain ⟨nodes, hnodes, -⟩ := bind_ok_iff.mp hops
  obtain ⟨first, rest, hids, hties, -⟩ := closure_ties hnodes
  rw [List.map_append, map_node_requirementsOfKind hc, map_node_requirementsOfKind hc] at hties
  exact ⟨c, nodes, first, rest, hc, hnodes, (runOrder_eq hc hnodes).trans hids, hids, hties,
    (host_spec .run hc hnodes).2⟩

/-- A host package of the build is one of the run. -/
theorem IsHost.of_build (hm : g.IsHost consumer .build m) : g.IsHost consumer .run m :=
  Reaches.append_left hm

theorem Outranks.asymm (h : g.Outranks consumer m n) : ¬ g.Outranks consumer n m :=
  Nat.lt_asymm h

/-- Of two packages that a consumer is run with, one outranks the other. -/
theorem outranks_or_outranks (hok : g.resolve consumer .run profiles = .ok env)
    (hm : g.IsHost consumer .run m) (hne : m ≠ n) :
    g.Outranks consumer m n ∨ g.Outranks consumer n m := by
  obtain ⟨c, nodes, first, rest, -, -, horder, -, hties, -⟩ := exists_runOrder_of_resolve hok
  refine Nat.lt_or_gt_of_ne fun heq => hne ?_
  rw [horder] at heq
  exact (List.idxOf_inj ((hties.mem_iff m).mpr hm)).mp heq

/-- What a longer walk leads to is outranked. -/
theorem outranks_of_shallower (hok : g.resolve consumer .run profiles = .ok env)
    (hm : g.IsHost consumer .run m)
    (hless : g.Shallower isHostEdge (g.hostRoots consumer .run) m n) :
    g.Outranks consumer m n := by
  obtain ⟨c, nodes, first, rest, -, -, horder, -, hties, -⟩ := exists_runOrder_of_resolve hok
  rw [Outranks, horder]
  exact hties.idxOf_lt_of_shallower hm hless

/-- A package that something requires outranks another one as the last edges to both do. -/
theorem outranks_iff_releasedBefore (hok : g.resolve consumer .run profiles = .ok env)
    {u : String} (hu : g.IsHost consumer .run u) (hlead : g.Leads isHostEdge u m)
    (hn : g.IsHost consumer .run n) :
    g.Outranks consumer m n ↔ g.ReleasedBefore isHostEdge (g.runOrder consumer) m n := by
  obtain ⟨c, nodes, first, rest, -, -, horder, -, hties, -⟩ := exists_runOrder_of_resolve hok
  rw [Outranks, horder]
  exact hties.idxOf_lt_iff_releasedBefore (hties.mem_rest_of_leads hu hlead)
    ((hties.mem_iff n).mpr hn)

/-- What a package resets hides every package that it outranks. -/
theorem Outranks.hides (hlt : g.Outranks consumer m n) (hm : g.IsHost consumer .run m)
    (hc : g.node? consumer = some c) (profiles : List Profile) :
    g.Hides consumer profiles m n := by
  intro node hnode name hresets parts
  refine itemsOf_withParts_of_lt hc hnode hm (fun nodes hnodes => ?_) hresets
  rwa [Outranks, runOrder_eq hc hnodes] at hlt

/-! ### Host packages and tests -/

theorem ledToFrom_of_not_testOnly (hh : g.IsHost consumer .build h)
    (hnone : ∀ u, g.TestOnly consumer u → ¬ TransGen (g.Leads isHostEdge) u h) :
    g.LedToFrom isHostEdge (g.hostRoots consumer .build) (g.hostRoots consumer .run) h := by
  intro p hp hpath
  rcases Relation.reflTransGen_iff_eq_or_transGen.mp hpath with rfl | hpath
  · exact hh
  · by_contra hbuild
    exact hnone p ⟨hp, hbuild⟩ hpath

/-- A host package that no package of the tests alone leads to outranks those that are not
shallower. -/
theorem outranks_iff_not_shallower (hok : g.resolve consumer .run profiles = .ok env)
    (hh : g.IsHost consumer .build h) (ht : g.TestOnly consumer t)
    (hnone : ∀ u, g.TestOnly consumer u → ¬ TransGen (g.Leads isHostEdge) u h) :
    g.Outranks consumer h t
      ↔ ¬ g.Shallower isHostEdge (g.hostRoots consumer .run) t h := by
  refine ⟨fun hlt hless => (outranks_of_shallower hok ht.1 hless).asymm hlt, fun hdeep => ?_⟩
  obtain ⟨c, nodes, first, rest, -, -, horder, hids, hties, horders⟩ :=
    exists_runOrder_of_resolve hok
  rw [Outranks, horder]
  exact hties.idxOf_lt_of_not_shallower horders hids hh.of_build
    (ledToFrom_of_not_testOnly hh hnone) ht.1 ht.2 hdeep

/-- A host package `h` outranks a package `t` that is there for the tests alone exactly when it is
shallower, or when it is as deep and the tie is broken for it: nothing requires it, or the last
requirement on it stands before the last one on `t`. Where no package of the tests alone leads to
`h`, it is enough that `t` is not shallower. Of the two, the one that outranks the other hides it
with all that it defines or unsets. -/
theorem host_outranks_test_iff (hok : g.resolve consumer .run profiles = .ok env)
    (hh : g.IsHost consumer .build h) (ht : g.TestOnly consumer t) :
    (g.Outranks consumer h t
        ↔ g.Shallower isHostEdge (g.hostRoots consumer .run) h t
          ∨ ¬ g.Shallower isHostEdge (g.hostRoots consumer .run) t h
            ∧ ((∀ u, g.IsHost consumer .run u → ¬ g.Leads isHostEdge u h)
              ∨ g.ReleasedBefore isHostEdge (g.runOrder consumer) h t))
      ∧ ((∀ u, g.TestOnly consumer u → ¬ TransGen (g.Leads isHostEdge) u h) →
        (g.Outranks consumer h t ↔ ¬ g.Shallower isHostEdge (g.hostRoots consumer .run) t h))
      ∧ (g.Outranks consumer h t → g.Hides consumer profiles h t)
      ∧ (¬ g.Outranks consumer h t → g.Hides consumer profiles t h) := by
  obtain ⟨c, -, -, -, hc, -⟩ := exists_runOrder_of_resolve hok
  have hdistinct : h ≠ t := fun heq => ht.2 (heq ▸ hh)
  have hfree : (∀ u, g.IsHost consumer .run u → ¬ g.Leads isHostEdge u h) →
      ∀ u, g.TestOnly consumer u → ¬ TransGen (g.Leads isHostEdge) u h := by
    intro hnone u hu hpath
    obtain ⟨p, hup, hph⟩ := TransGen.tail'_iff.mp hpath
    exact hnone p (hu.1.trans hup) hph
  refine ⟨⟨fun hlt => ?_, ?_⟩, outranks_iff_not_shallower hok hh ht,
    fun hlt => hlt.hides hh.of_build hc profiles, fun hnot => ?_⟩
  · by_cases hless : g.Shallower isHostEdge (g.hostRoots consumer .run) h t
    · exact .inl hless
    · refine .inr ⟨fun hdeep => (outranks_of_shallower hok ht.1 hdeep).asymm hlt, ?_⟩
      by_cases hnone : ∀ u, g.IsHost consumer .run u → ¬ g.Leads isHostEdge u h
      · exact .inl hnone
      · simp only [not_forall, not_not] at hnone
        obtain ⟨u, hu, hlead⟩ := hnone
        exact .inr ((outranks_iff_releasedBefore hok hu hlead ht.1).mp hlt)
  · rintro (hless | ⟨hdeep, htie⟩)
    · exact outranks_of_shallower hok hh.of_build hless
    · by_cases hnone : ∀ u, g.IsHost consumer .run u → ¬ g.Leads isHostEdge u h
      · exact (outranks_iff_not_shallower hok hh ht (hfree hnone)).mpr hdeep
      · have hreleased := htie.resolve_left hnone
        simp only [not_forall, not_not] at hnone
        obtain ⟨u, hu, hlead⟩ := hnone
        exact (outranks_iff_releasedBefore hok hu hlead ht.1).mpr hreleased
  · have hlt := (outranks_or_outranks hok hh.of_build hdistinct).resolve_left hnot
    exact hlt.hides ht.1 hc profiles

/-! ### A deep library and a shallow test -/

/-- A program with a library behind a library, and with a test package that sets the same mode. -/
def tested : Graph where
  nodes := [
    { Node.ofName "app" with
      requirements := [⟨"lib", .requires, true⟩, ⟨"gtest", .testRequires, false⟩] },
    { Node.ofName "lib" with requirements := [⟨"core", .requires, true⟩] },
    { Node.ofName "core" with runEnv := [.define "MODE" "release"] },
    { Node.ofName "gtest" with runEnv := [.define "MODE" "debug"] }]
  ids_nodup := by decide

theorem resolve_tested : tested.resolve "app" .run []
    = .ok (ofOps "app" .run none [.define "MODE" "release", .define "MODE" "debug"]) := by
  cbv

theorem not_leads_gtest (u : String) : ¬ tested.Leads isHostEdge u "gtest" := by
  rintro ⟨n, r, hn, hr, hfollow, hnode⟩
  have hnone : ∀ n ∈ tested.nodes, ∀ r ∈ n.requirements, isHostEdge r → r.node ≠ "gtest" := by
    decide
  exact hnone n (List.mem_of_find?_eq_some hn) r hr hfollow hnode

theorem testOnly_gtest : tested.TestOnly "app" "gtest" := by
  refine ⟨.root (by decide), fun hbuild => ?_⟩
  cases hbuild with
  | root hroot =>
      exact absurd hroot (by decide)
  | step _ hlead =>
      exact not_leads_gtest _ hlead

theorem isHost_core : tested.IsHost "app" .build "core" :=
  (Reaches.root (by decide)).step (u := "lib") (mem_targets_iff.mp (by decide))

/-- The deeper library is outranked, and the test package hides it. -/
theorem host_outranks_test_iff_tested :
    tested.resolve "app" .run []
        = .ok (ofOps "app" .run none [.define "MODE" "release", .define "MODE" "debug"])
      ∧ tested.IsHost "app" .build "core" ∧ tested.TestOnly "app" "gtest"
      ∧ ¬ tested.Outranks "app" "core" "gtest" ∧ tested.Hides "app" [] "gtest" "core" := by
  obtain ⟨hiff, -, -, hhides⟩ :=
    host_outranks_test_iff resolve_tested isHost_core testOnly_gtest
  have hroot : ∀ j, "gtest" ∈ tested.walkEnds isHostEdge (tested.hostRoots "app" .run) j →
      j = 0 := by
    intro j hj
    cases j with
    | zero =>
        rfl
    | succ j =>
        obtain ⟨u, -, hlead⟩ := mem_walkEnds_succ_iff.mp hj
        exact absurd hlead (not_leads_gtest u)
  have hcore : "core" ∈ tested.walkEnds isHostEdge (tested.hostRoots "app" .run) 1 := by
    decide
  have hnot : ¬ tested.Outranks "app" "core" "gtest" := by
    rw [hiff]
    rintro (⟨k, hk, hshort⟩ | ⟨hdeep, -⟩)
    · rw [hroot k hk] at hshort
      exact absurd (hshort 1 hcore) (by decide)
    · refine hdeep ⟨1, hcore, fun j hj => ?_⟩
      rw [hroot j hj]
      decide
  exact ⟨resolve_tested, isHost_core, testOnly_gtest, hnot, hhides hnot⟩

/-- A package of the tests overrides what a host package defines, although neither leads to the
other: a longer walk leads to the host package. -/
theorem shallow_test_overrides :
    ∃ env core, tested.resolve "app" .run [] = .ok env
      ∧ tested.IsHost "app" .build "core" ∧ tested.TestOnly "app" "gtest"
      ∧ ¬ TransGen (tested.Leads isHostEdge) "core" "gtest"
      ∧ ¬ TransGen (tested.Leads isHostEdge) "gtest" "core"
      ∧ tested.node? "core" = some core ∧ .define "MODE" "release" ∈ core.runEnv
      ∧ env.get? "MODE" = some "debug" := by
  refine ⟨_, _, resolve_tested, isHost_core, testOnly_gtest, fun hpath => ?_, fun hpath => ?_, rfl,
    by decide, by decide⟩
  · obtain ⟨u, -, hlead⟩ := TransGen.tail'_iff.mp hpath
    exact not_leads_gtest u hlead
  · obtain ⟨v, hlead, -⟩ := TransGen.head'_iff.mp hpath
    have hnone : tested.targets isHostEdge "gtest" = [] := by decide
    exact absurd (hnone ▸ mem_targets_iff.mpr hlead) List.not_mem_nil

end EnvLayers.Graph
