import EnvLayers.Proofs.Environment.View
import EnvLayers.Proofs.Outcome

/-
Module: EnvLayers.Proofs.Environment.OwnParts
Purpose: Whether a consumer sees what it declares for its own consumers. It does not, unless a
  requirement that is followed from nowhere but the consumer, a private one or one of its tests,
  leads back to it: then it is one of its own host packages, and no cycle keeps it out.
Main exports: Parts, Graph.withParts, Graph.LeadsBack, leadsBack_of_isHost,
  Graph.own_parts_unseen_iff
-/

namespace EnvLayers

/-- What a package contributes to others. -/
structure Parts where
  buildEnv : List Op
  runEnv : List Op
  folder : Option String
  layout : Layout

/-- The package with other parts. -/
def Node.withParts (n : Node) (parts : Parts) : Node :=
  { n with
    buildEnv := parts.buildEnv
    runEnv := parts.runEnv
    folder := parts.folder
    layout := parts.layout }

namespace Graph

/-- A package as it stands in a graph with other parts for the package of an id. -/
def replacedParts (id : String) (parts : Parts) (n : Node) : Node :=
  if n.id = id then n.withParts parts else n

theorem shape_replacedParts (id : String) (parts : Parts) (n : Node) :
    (replacedParts id parts n).shape = n.shape := by
  unfold replacedParts
  split <;> rfl

theorem id_replacedParts (id : String) (parts : Parts) (n : Node) :
    (replacedParts id parts n).id = n.id :=
  congrArg (·.1) (shape_replacedParts id parts n)

/-- The graph with other parts for the package of an id. -/
def withParts (g : Graph) (id : String) (parts : Parts) : Graph :=
  { g with
    nodes := g.nodes.map (replacedParts id parts)
    ids_nodup := by
      have hids : (g.nodes.map (replacedParts id parts)).map (·.id) = g.nodes.map (·.id) := by
        rw [List.map_map]
        exact List.map_congr_left fun n _ => id_replacedParts id parts n
      rw [hids]
      exact g.ids_nodup }

variable {g : Graph} {consumer id : String} {c n : Node} {parts : Parts} {scope : Scope}

theorem alike_withParts (g : Graph) (id : String) (parts : Parts) :
    g.Alike (g.withParts id parts) := by
  unfold Alike withParts
  rw [List.map_map]
  exact List.map_congr_left fun n _ => shape_replacedParts id parts n

theorem node?_withParts (g : Graph) (id : String) (parts : Parts) (wanted : String) :
    (g.withParts id parts).node? wanted = (g.node? wanted).map (replacedParts id parts) := by
  have hsame : (fun n : Node => n.id == wanted) ∘ replacedParts id parts
      = fun n => n.id == wanted :=
    funext fun n => congrArg (· == wanted) (id_replacedParts id parts n)
  rw [node?, withParts, List.find?_map, hsame, node?]

/-- Packages other than the one with other parts stay as they are. -/
theorem counterpart_withParts_of_ne (hn : g.node? n.id = some n) (hne : n.id ≠ id) :
    (g.withParts id parts).counterpart n = n := by
  rw [counterpart, node?_withParts, hn, Option.map_some, Option.getD_some, replacedParts,
    if_neg hne]

/-! ### Leading back to the consumer -/

/-- A requirement that a scope follows from the consumer and from no package further on: one that
is private, or one of the tests where the consumer is run. -/
def isOwnEdge : Scope → Requirement → Bool
  | .build, r => r.kind == .requires && !r.visible
  | .run, r => r.kind == .requires && !r.visible || r.kind == .testRequires

/-- A requirement that only the consumer follows leads back to it. -/
def LeadsBack (g : Graph) (consumer : String) (scope : Scope) : Prop :=
  g.Reaches isHostEdge (g.targets (isOwnEdge scope) consumer) consumer

theorem leads_or_iff {follow follow' : Requirement → Bool} {u v : String} :
    g.Leads (fun r => follow r || follow' r) u v ↔ g.Leads follow u v ∨ g.Leads follow' u v := by
  constructor
  · rintro ⟨n, r, hn, hr, hfollow, hv⟩
    exact (Bool.or_eq_true_iff.mp hfollow).imp (fun h => ⟨n, r, hn, hr, h, hv⟩)
      fun h => ⟨n, r, hn, hr, h, hv⟩
  · rintro (⟨n, r, hn, hr, hfollow, hv⟩ | ⟨n, r, hn, hr, hfollow, hv⟩)
    · exact ⟨n, r, hn, hr, Bool.or_eq_true_iff.mpr (.inl hfollow), hv⟩
    · exact ⟨n, r, hn, hr, Bool.or_eq_true_iff.mpr (.inr hfollow), hv⟩

/-- What a consumer requires for the host is required either by itself alone or as any package
requires it. -/
theorem mem_hostRoots_iff :
    id ∈ g.hostRoots consumer scope
      ↔ g.Leads (isOwnEdge scope) consumer id ∨ g.Leads isHostEdge consumer id := by
  rw [← leads_or_iff]
  cases scope with
  | build =>
      have hedge : (fun r : Requirement => isOwnEdge .build r || isHostEdge r)
          = (·.kind == .requires) := by
        funext ⟨_, kind, visible⟩
        cases kind <;> cases visible <;> rfl
      rw [hostRoots, mem_targets_iff, hedge]
  | run =>
      have hedge : (fun r : Requirement => isOwnEdge .run r || isHostEdge r)
          = fun r => r.kind == .requires || r.kind == .testRequires := by
        funext ⟨_, kind, visible⟩
        cases kind <;> cases visible <;> rfl
      rw [hostRoots, List.mem_append, mem_targets_iff, mem_targets_iff, hedge, leads_or_iff]

theorem LeadsBack.isHost (h : g.LeadsBack consumer scope) : g.IsHost consumer scope consumer := by
  rcases h.exists_root with ⟨r, hr, hpath⟩
  exact reaches_of_reflTransGen (mem_hostRoots_iff.mpr (.inl (mem_targets_iff.mp hr))) hpath

theorem Alike.leadsBack {g' : Graph} (h : g.Alike g') (hback : g.LeadsBack consumer scope) :
    g'.LeadsBack consumer scope := by
  rw [LeadsBack, h.targets_eq]
  exact h.reaches_of_reaches hback

/-- A consumer without a cycle among its host packages is one of them only over a requirement that
nobody else follows: over any other one it would lead back to itself. -/
theorem leadsBack_of_isHost (hacyclic : ¬ g.Cyclic isHostEdge (g.hostRoots consumer scope))
    (hself : g.IsHost consumer scope consumer) : g.LeadsBack consumer scope := by
  rcases hself.exists_root with ⟨r, hr, hback⟩
  rcases mem_hostRoots_iff.mp hr with hown | hlead
  · exact reaches_of_reflTransGen (mem_targets_iff.mpr hown) hback
  · exact absurd (cyclic_of_leads_root hr hlead hback) hacyclic

/-- A consumer is never among the tools of its own build: every tool is required in a way that is
followed from any package. -/
theorem not_isTool_self
    (hacyclic : ¬ g.Cyclic isToolEdge (g.targets (·.kind == .buildRequires) consumer)) :
    ¬ g.IsTool consumer consumer := by
  intro hself
  rcases hself.exists_root with ⟨r, hr, hback⟩
  rcases mem_targets_iff.mp hr with ⟨n, requirement, hn, hmem, hkind, hnode⟩
  have hedge : isToolEdge requirement = true := Bool.or_eq_true_iff.mpr (.inr hkind)
  exact hacyclic (cyclic_of_leads_root hr ⟨n, requirement, hn, hmem, hedge, hnode⟩ hback)

/-! ### Other parts -/

theorem resolve_of_sequence {profiles : List Profile} {ops : List Op}
    (hc : g.node? consumer = some c) (hops : g.sequence c profiles scope = .ok ops) :
    g.resolve consumer scope profiles
      = .ok (ofOps consumer scope (g.settingsOf scope).os ops) := by
  rw [resolve_eq_sequence, node, hc]
  simp only [bind, Except.bind, hops, pure, Except.pure]

/-- Unless the consumer is one of its own host packages, its parts are used nowhere. -/
theorem sameParts_withParts (hc : g.node? consumer = some c)
    (h : ¬ (g.LeadsBack consumer scope ∧ ∃ env, g.resolve consumer scope [] = .ok env)) :
    g.SameParts (g.withParts consumer parts) c scope := by
  have hother : ∀ nodes ops, g.hostClosure c scope = .ok nodes →
      g.sequence c [] scope = .ok ops →
        ∀ n ∈ nodes, (g.withParts consumer parts).counterpart n = n := by
    intro nodes ops hnodes hops n hn
    rcases host_spec scope hc hnodes with ⟨hacyclic, horders⟩
    refine counterpart_withParts_of_ne (horders.declared n hn) fun hself => ?_
    have hhost : g.IsHost consumer scope consumer := hself ▸ horders.reaches hn
    exact h ⟨leadsBack_of_isHost hacyclic hhost, _, resolve_of_sequence hc hops⟩
  cases scope with
  | run =>
      intro nodes hnodes n hn
      rw [hother nodes _ hnodes (by simp only [sequence, hnodes, bind, Except.bind]; rfl) n hn]
  | build =>
      intro tools hosts htools hhosts
      rcases tools_spec hc htools with ⟨hacyclic, horders⟩
      have htool : ∀ n ∈ tools, (g.withParts consumer parts).counterpart n = n := by
        intro n hn
        refine counterpart_withParts_of_ne (horders.declared n hn) fun hself => ?_
        exact not_isTool_self hacyclic (hself ▸ horders.reaches hn)
      refine ⟨fun n hn => ?_, fun n hn => ?_⟩
      · rw [htool n hn]
        exact ⟨rfl, fun _ => rfl⟩
      · rw [hother hosts _ hhosts (by simp only [sequence, htools, hhosts, bind, Except.bind]; rfl)
          n hn]

/-- The environment that a package contributes to a scope as a host package. -/
def hostEnv (n : Node) : Scope → List Op
  | .build => n.buildEnv
  | .run => n.runEnv

/-- What the host packages declare for a scope is part of its operations. -/
theorem mem_sequence_of_isHost {profiles : List Profile} {ops : List Op} {op : Op}
    (hc : g.node? consumer = some c) (hops : g.sequence c profiles scope = .ok ops)
    (hid : g.IsHost consumer scope id) (hn : g.node? id = some n) (hop : op ∈ hostEnv n scope) :
    op ∈ ops := by
  cases scope with
  | run =>
      obtain ⟨nodes, hnodes, hlisted⟩ := bind_ok_iff.mp hops
      cases hlisted
      have hmem := (host_spec .run hc hnodes).2.mem_of_reaches hn hid
      refine List.mem_append_left _ (List.mem_flatMap.mpr ⟨n, List.mem_reverse.mpr hmem, ?_⟩)
      exact List.mem_append_right _ hop
  | build =>
      obtain ⟨tools, htools, hrest⟩ := bind_ok_iff.mp hops
      obtain ⟨hosts, hhosts, hlisted⟩ := bind_ok_iff.mp hrest
      cases hlisted
      have hmem := (host_spec .build hc hhosts).2.mem_of_reaches hn hid
      refine List.mem_append_left _ (List.mem_append_left _ ?_)
      exact List.mem_flatMap.mpr ⟨n, List.mem_reverse.mpr hmem, hop⟩

/-- A consumer that is led back to sees what it declares itself. -/
theorem name_mem_of_leadsBack {profiles : List Profile} {env : Environment} {name : String}
    (hback : g.LeadsBack consumer scope)
    (h : (g.withParts consumer ⟨[.unset name], [.unset name], none, .default⟩).resolve consumer
      scope profiles = .ok env) : name ∈ env.names := by
  obtain ⟨c, ops, hc, hops, rfl⟩ := exists_sequence_of_resolve h
  have hdeclared : .unset name ∈ hostEnv c scope := by
    have hreplaced := hc
    rw [node?_withParts, Option.map_eq_some_iff] at hreplaced
    obtain ⟨declared, hfound, rfl⟩ := hreplaced
    rw [replacedParts, if_pos (id_of_node? hfound)]
    cases scope <;> exact List.mem_singleton.mpr rfl
  have hmem := mem_sequence_of_isHost hc hops ((alike_withParts g _ _).leadsBack hback).isHost hc
    hdeclared
  exact mem_names_ofOps.mpr ⟨_, hmem, rfl⟩

/-- A consumer does not see its own environments and layout, whatever they are and whether or not
the resolution succeeds, with one exception: it succeeds, and a private requirement, or one of the
tests of a run, leads back to the consumer. -/
theorem own_parts_unseen_iff (g : Graph) (consumer : String) (scope : Scope) :
    (∀ parts profiles, (g.withParts consumer parts).resolve consumer scope profiles
        = g.resolve consumer scope profiles)
      ↔ ¬ (g.LeadsBack consumer scope ∧ ∃ env, g.resolve consumer scope [] = .ok env) := by
  constructor
  · rintro hsame ⟨hback, env, henv⟩
    -- a name that the environment does not hold would be seen if the consumer declared it
    obtain ⟨name, hnew⟩ := Infinite.exists_notMem_finset env.names.toFinset
    have hdeclared := hsame ⟨[.unset name], [.unset name], none, .default⟩ []
    rw [henv] at hdeclared
    exact hnew (List.mem_toFinset.mpr (name_mem_of_leadsBack hback hdeclared))
  · intro h parts profiles
    refine (alike_withParts g consumer parts).resolve_eq ?_ rfl fun c hc =>
      sameParts_withParts hc h
    cases scope <;> rfl

/-- A package whose private requirement requires it in turn. -/
def selfServing : Graph where
  nodes := [
    { Node.ofName "app" with requirements := [⟨"lib", .requires, false⟩] },
    { Node.ofName "lib" with requirements := [⟨"app", .requires, true⟩] }]
  ids_nodup := by decide

/-- The package of `selfServing` is run with its own runtime environment. -/
theorem own_parts_seen :
    ∃ env, (selfServing.withParts "app" ⟨[], [.define "SELF" "1"], none, .default⟩).resolve "app"
        .run [] = .ok env
      ∧ env.get? "SELF" = some "1" ∧ selfServing.resolve "app" .run [] ≠ .ok env := by
  have hown : (selfServing.withParts "app" ⟨[], [.define "SELF" "1"], none, .default⟩).resolve
      "app" .run []
        = .ok (ofOps "app" .run none [.define "SELF" "1"]) := by
    cbv
  have hbare : selfServing.resolve "app" .run [] = .ok (ofOps "app" .run none []) := by
    cbv
  refine ⟨_, hown, by decide, ?_⟩
  rw [hbare]
  intro hsame
  have hnames := congrArg Environment.names (Except.ok.inj hsame)
  cases hnames

end Graph

end EnvLayers
