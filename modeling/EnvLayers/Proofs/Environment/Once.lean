import EnvLayers.Proofs.Environment.View
import EnvLayers.Proofs.Outcome

/-
Module: EnvLayers.Proofs.Environment.Once
Purpose: How often a package contributes. However many requirements lead to it, each of its parts
  counts once, and a text that is written once stands once among the values of its variable. The
  exception is a package that a build has in both contexts, as a tool that the consumer requires
  itself and as one of its host packages: its build environment counts in each of them.
Main exports: Contribution.part, Graph.InBothContexts, Graph.texts, Graph.Context, Orders.context,
  exists_contexts, count_part_contributions, count_textsOn_sequence, Graph.contributes_once
-/

namespace EnvLayers

/-- Which part of which package a contribution is. -/
def Contribution.part (c : Contribution) : String × Origin := (c.node, c.origin)

/-- The texts that operations write into the variable of a name. -/
def textsOn (name : String) (ops : List Op) : List String := (opsOn name ops).filterMap Op.value

@[simp] theorem textsOn_append (name : String) (first second : List Op) :
    textsOn name (first ++ second) = textsOn name first ++ textsOn name second := by
  rw [textsOn, opsOn_append, List.filterMap_append, textsOn, textsOn]

theorem textsOn_flatMap {α : Type} (name : String) (xs : List α) (ops : α → List Op) :
    textsOn name (xs.flatMap ops) = xs.flatMap fun x => textsOn name (ops x) := by
  rw [textsOn, opsOn_flatMap, List.filterMap_flatMap]
  rfl

/-! ### Counting in joined lists -/

section Counting

variable {α β : Type} [DecidableEq β] {f : α → List β} {xs ys : List α} {a b : α} {y : β}

/-- Different members that bring the same are counted apart. -/
theorem eq_of_count_flatMap_le_one (h : (xs.flatMap f).count y ≤ 1) (ha : a ∈ xs) (hb : b ∈ xs)
    (hya : y ∈ f a) (hyb : y ∈ f b) : a = b := by
  induction xs with
  | nil =>
      cases ha
  | cons x xs ih =>
      rw [List.flatMap_cons, List.count_append] at h
      have hrest : ∀ z ∈ xs, y ∈ f z → 0 < (xs.flatMap f).count y := fun z hz hyz =>
        List.count_pos_iff.mpr (List.mem_flatMap.mpr ⟨z, hz, hyz⟩)
      rcases List.mem_cons.mp ha with rfl | hain
      · rcases List.mem_cons.mp hb with rfl | hbin
        · rfl
        · have hhead := List.count_pos_iff.mpr hya
          have htail := hrest b hbin hyb
          omega
      · rcases List.mem_cons.mp hb with rfl | hbin
        · have hhead := List.count_pos_iff.mpr hyb
          have htail := hrest a hain hya
          omega
        · exact ih (by omega) hain hbin

/-- Distinct members of a list bring no more than the list does. -/
theorem count_flatMap_le (hnodup : xs.Nodup) (hsub : xs ⊆ ys) :
    (xs.flatMap f).count y ≤ (ys.flatMap f).count y := by
  obtain ⟨zs, hperm, hsublist⟩ := List.subperm_of_subset hnodup hsub
  calc (xs.flatMap f).count y
      = (zs.flatMap f).count y := (hperm.symm.flatMap_right f).count_eq y
    _ ≤ (ys.flatMap f).count y := (hsublist.flatMap f).count_le y

end Counting

/-! ### The values of a variable -/

/-- Operations put a text among the values of a variable no more often than they hold it. -/
theorem Variable.count_items_applyAll (v : Variable) (ops : List Op) (text : String) :
    (v.applyAll ops).items.count (.value text)
      ≤ v.items.count (.value text) + (ops.filterMap Op.value).count text := by
  induction ops generalizing v with
  | nil =>
      exact Nat.le_add_right _ _
  | cons op ops ih =>
      have hstep : (v.apply op).items.count (.value text)
          ≤ v.items.count (.value text) + op.value.toList.count text := by
        cases op with
        | unset name =>
            exact Nat.zero_le _
        | put place name value isPath separator =>
            cases place <;>
              simp [Variable.apply, placed, Op.value, List.count_append, List.count_cons]
      have hrest := ih (v.apply op)
      have hcons : ((op :: ops).filterMap Op.value).count text
          = op.value.toList.count text + (ops.filterMap Op.value).count text := by
        cases hvalue : op.value <;> simp [hvalue, List.count_cons, Nat.add_comm]
      rw [hcons]
      have happly : v.applyAll (op :: ops) = (v.apply op).applyAll ops := rfl
      rw [happly]
      omega

/-- An environment holds a text no more often than its operations write it. -/
theorem Graph.count_items_ofOps {consumer : String} {scope : Scope} {os : Option Os} {ops : List Op}
    {v : Variable} (hv : v ∈ (ofOps consumer scope os ops).vars) (text : String) :
    v.items.count (.value text) ≤ (textsOn v.name ops).count text := by
  have hfind := Variables.find_of_mem (Environment.names_nodup _) hv
  rw [ofOps, Variables.find_applyAll_nil] at hfind
  split at hfind
  · have hfolded := Variable.count_items_applyAll (.fresh v.name) (opsOn v.name ops) text
    rw [Option.some.inj hfind] at hfolded
    simpa [Variable.fresh, textsOn] using hfolded
  · cases hfind

namespace Graph

/-- A package that a build has in both contexts: the consumer requires it as a tool itself, and it
is one of its host packages. -/
def InBothContexts (g : Graph) (consumer : String) (scope : Scope) (id : String) : Prop :=
  scope = .build ∧ id ∈ g.targets (·.kind == .buildRequires) consumer
    ∧ g.IsHost consumer .build id

/-- The parts of a package. -/
def parts (os : Option Os) (n : Node) : List Contribution := buildPart n :: runParts os n

/-- The texts that the parts of all packages, and the profiles, write into the variable of a name.
-/
def texts (g : Graph) (consumer : Node) (scope : Scope) (profiles : List Profile) (name : String) :
    List String :=
  textsOn name ((g.nodes.flatMap (parts (g.settingsOf scope).os)).flatMap (·.ops))
    ++ textsOn name (profileOps profiles scope consumer)

variable {g : Graph} {consumer : String} {c n : Node} {nodes : List Node} {os : Option Os}
  {follow : Requirement → Bool} {roots : List String} {select : Node → List Contribution}
  {contribution : Contribution} {tools hosts : List Contribution}

/-! ### The parts of packages -/

theorem node_of_mem_parts (h : contribution ∈ parts os n) : contribution.node = n.id := by
  simp only [parts, runParts, List.mem_cons, List.not_mem_nil, or_false] at h
  rcases h with rfl | rfl | rfl <;> rfl

theorem eq_buildPart_of_mem_parts (h : contribution ∈ parts os n)
    (horigin : contribution.origin = .buildEnv) : contribution = buildPart n := by
  simp only [parts, runParts, List.mem_cons, List.not_mem_nil, or_false] at h
  rcases h with rfl | rfl | rfl
  · rfl
  · cases horigin
  · cases horigin

theorem runParts_sublist (os : Option Os) (n : Node) :
    (runParts os n).Sublist (parts os n) :=
  List.sublist_cons_self ..

theorem toolParts_sublist (c : Node) (os : Option Os) (n : Node) :
    (toolParts c os n).Sublist (parts os n) := by
  unfold toolParts
  split
  · exact List.Sublist.refl _
  · exact List.sublist_cons_self ..

theorem buildPart_sublist (os : Option Os) (n : Node) : [buildPart n].Sublist (parts os n) :=
  List.singleton_sublist.mpr List.mem_cons_self

theorem buildPart_mem_toolParts_iff : buildPart n ∈ toolParts c os n ↔ isDirectTool c n := by
  unfold toolParts
  split
  · next hdirect =>
      simpa using hdirect
  · next hdirect =>
      simpa [runParts, buildPart] using hdirect

/-- The parts of packages with distinct ids are distinct. -/
theorem nodup_part_flatMap_parts (hnodes : (nodes.map (·.id)).Nodup) (os : Option Os) :
    ((nodes.flatMap (parts os)).map (·.part)).Nodup := by
  rw [List.map_flatMap, List.nodup_flatMap]
  refine ⟨fun n _ => by simp [parts, runParts, buildPart, Contribution.part], ?_⟩
  refine (List.pairwise_map.mp hnodes).imp ?_
  intro m n hne part hm hn
  obtain ⟨first, hfirst, rfl⟩ := List.mem_map.mp hm
  obtain ⟨second, hsecond, heq⟩ := List.mem_map.mp hn
  have hnode : second.node = first.node := congrArg Prod.fst heq
  rw [node_of_mem_parts hfirst, node_of_mem_parts hsecond] at hnode
  exact hne hnode.symm

/-! ### One context -/

/-- Parts of packages of the graph, each listed once. -/
structure Context (g : Graph) (os : Option Os) (contributions : List Contribution) : Prop where
  nodup : (contributions.map (·.part)).Nodup
  within : contributions ⊆ g.nodes.flatMap (parts os)

/-- A closure is a context, whichever parts of its packages count. -/
theorem Orders.context (h : g.Orders follow roots nodes)
    (hselect : ∀ n, (select n).Sublist (parts os n)) :
    g.Context os (withOps (nodes.flatMap select)) where
  nodup := by
    have hparts : (nodes.flatMap select).Sublist (nodes.flatMap (parts os)) :=
      List.Sublist.flatMap_right nodes fun n _ => hselect n
    exact (nodup_part_flatMap_parts h.nodup os).sublist
      ((List.filter_sublist.trans hparts).map _)
  within contribution hmem := by
    obtain ⟨n, hn, hpart⟩ := List.mem_flatMap.mp (List.mem_filter.mp hmem).1
    exact List.mem_flatMap.mpr ⟨n, List.mem_of_find?_eq_some (h.declared n hn),
      (hselect n).subset hpart⟩

theorem mem_withOps_flatMap (hn : n ∈ nodes) (hmem : contribution ∈ select n)
    (hops : contribution.ops ≠ []) : contribution ∈ withOps (nodes.flatMap select) := by
  refine List.mem_filter.mpr ⟨List.mem_flatMap.mpr ⟨n, hn, hmem⟩, ?_⟩
  simpa using hops

namespace Context

theorem empty (g : Graph) (os : Option Os) : g.Context os [] :=
  ⟨List.nodup_nil, List.nil_subset _⟩

theorem count_part_le (h : g.Context os tools) (part : String × Origin) :
    (tools.map (·.part)).count part ≤ 1 :=
  List.nodup_iff_count_le_one.mp h.nodup part

/-- What comes once in the whole graph comes no more often in two contexts, unless one contribution
brings it to both. -/
theorem count_append_le {β : Type} [DecidableEq β] {f : Contribution → List β} {y : β}
    (htools : g.Context os tools) (hhosts : g.Context os hosts)
    (hy : ((g.nodes.flatMap (parts os)).flatMap f).count y ≤ 1) :
    ((tools ++ hosts).flatMap f).count y ≤ ((g.nodes.flatMap (parts os)).flatMap f).count y
      ∨ ((tools ++ hosts).flatMap f).count y = 2
        ∧ ∃ contribution, contribution ∈ tools ∧ contribution ∈ hosts ∧ y ∈ f contribution := by
  have hle : ∀ {contributions}, g.Context os contributions → (contributions.flatMap f).count y
      ≤ ((g.nodes.flatMap (parts os)).flatMap f).count y := fun h =>
    count_flatMap_le (.of_map _ h.nodup) h.within
  have htoolsLe := hle htools
  have hhostsLe := hle hhosts
  rw [List.flatMap_append, List.count_append]
  by_cases hboth : y ∈ tools.flatMap f ∧ y ∈ hosts.flatMap f
  -- What both bring comes from one member of the graph's parts, as only one of them brings it.
  · obtain ⟨tool, htool, hyt⟩ := List.mem_flatMap.mp hboth.1
    obtain ⟨host, hhost, hyh⟩ := List.mem_flatMap.mp hboth.2
    have hsame := eq_of_count_flatMap_le_one hy (htools.within htool) (hhosts.within hhost) hyt hyh
    have htoolsPos := List.count_pos_iff.mpr hboth.1
    have hhostsPos := List.count_pos_iff.mpr hboth.2
    exact .inr ⟨by omega, tool, htool, hsame ▸ hhost, hyt⟩
  · rw [not_and_or, ← List.count_eq_zero, ← List.count_eq_zero] at hboth
    omega

end Context

/-! ### The contexts of a consumer -/

/-- The build environment of a package counts in two contexts. -/
def CountsTwice (g : Graph) (consumer : String) (scope : Scope) (part : String × Origin) : Prop :=
  part.2 = .buildEnv ∧ g.InBothContexts consumer scope part.1
    ∧ ∃ n, g.node? part.1 = some n ∧ n.buildEnv ≠ []

theorem countsTwice_iff {toolNodes hostNodes : List Node} {part : String × Origin}
    (hc : g.node? consumer = some c)
    (htools : g.Orders isToolEdge (g.targets (·.kind == .buildRequires) consumer) toolNodes)
    (hhosts : g.Orders isHostEdge (g.hostRoots consumer .build) hostNodes) :
    g.CountsTwice consumer .build part
      ↔ part ∈ (withOps (toolNodes.flatMap (toolParts c os))).map (·.part)
        ∧ part ∈ (withOps (hostNodes.flatMap fun n => [buildPart n])).map (·.part) := by
  constructor
  · obtain ⟨id, origin⟩ := part
    rintro ⟨horigin, ⟨_, htarget, hhost⟩, n, hn, hops⟩
    obtain rfl : origin = .buildEnv := horigin
    obtain rfl := id_of_node? hn
    have hdirect := (isDirectTool_iff_mem_targets hc).mpr htarget
    have htool : buildPart n ∈ withOps (toolNodes.flatMap (toolParts c os)) :=
      mem_withOps_flatMap (htools.mem_of_reaches hn (.root htarget))
        (buildPart_mem_toolParts_iff.mpr hdirect) hops
    have hbuild : buildPart n ∈ withOps (hostNodes.flatMap fun n => [buildPart n]) :=
      mem_withOps_flatMap (hhosts.mem_of_reaches hn hhost) List.mem_cons_self hops
    exact ⟨List.mem_map_of_mem htool, List.mem_map_of_mem hbuild⟩
  -- A host package contributes its build environment alone, and a tool only if it is direct.
  · rintro ⟨htool, hhost⟩
    obtain ⟨host, hlisted, rfl⟩ := List.mem_map.mp hhost
    obtain ⟨hlisted, hops⟩ := List.mem_filter.mp hlisted
    obtain ⟨n, hn, hpart⟩ := List.mem_flatMap.mp hlisted
    obtain rfl := List.mem_singleton.mp hpart
    obtain ⟨tool, hmem, hsame⟩ := List.mem_map.mp htool
    obtain ⟨m, hm, hin⟩ := List.mem_flatMap.mp (List.mem_filter.mp hmem).1
    obtain rfl := eq_buildPart_of_mem_parts ((toolParts_sublist c os m).subset hin)
      (congrArg Prod.snd hsame)
    have hid : m.id = n.id := congrArg Prod.fst hsame
    have htarget := (isDirectTool_iff_mem_targets hc).mp (buildPart_mem_toolParts_iff.mp hin)
    rw [hid] at htarget
    refine ⟨rfl, ⟨rfl, htarget, hhosts.reaches hn⟩, n, hhosts.declared n hn, ?_⟩
    simpa [buildPart] using hops

/-- The contributions to a consumer come from two contexts, of which the first is empty but for a
build. -/
theorem exists_contexts {scope : Scope} {contributions : List Contribution}
    (hc : g.node? consumer = some c) (h : g.contributions c scope = .ok contributions) :
    ∃ tools hosts, contributions = tools ++ hosts ∧ g.Context (g.settingsOf scope).os tools
      ∧ g.Context (g.settingsOf scope).os hosts
      ∧ ∀ part, g.CountsTwice consumer scope part
        ↔ part ∈ tools.map (·.part) ∧ part ∈ hosts.map (·.part) := by
  cases scope with
  | run =>
      obtain ⟨nodes, hnodes, hlisted⟩ := bind_ok_iff.mp h
      cases hlisted
      have hcontext := (host_spec .run hc hnodes).2.context (runParts_sublist g.settings.os)
      refine ⟨[], _, rfl, .empty g _, hcontext, fun part => ?_⟩
      simp [CountsTwice, InBothContexts]
  | build =>
      obtain ⟨toolNodes, htools, hrest⟩ := bind_ok_iff.mp h
      obtain ⟨hostNodes, hhosts, hlisted⟩ := bind_ok_iff.mp hrest
      cases hlisted
      have htoolsOrder := (tools_spec hc htools).2
      have hhostsOrder := (host_spec .build hc hhosts).2
      refine ⟨_, _, ?_, htoolsOrder.context (toolParts_sublist c g.buildSettings.os),
        hhostsOrder.context (buildPart_sublist g.buildSettings.os),
        fun part => countsTwice_iff hc htoolsOrder hhostsOrder⟩
      have hbuild : hostNodes.map buildPart = hostNodes.flatMap fun n => [buildPart n] :=
        List.map_eq_flatMap
      rw [withOps, List.filter_append, hbuild]
      rfl

variable {scope : Scope} {profiles : List Profile} {contributions : List Contribution}

/-- Of the contributions to a consumer, no part is listed twice but the build environments that
count twice. -/
theorem count_part_contributions (hc : g.node? consumer = some c)
    (h : g.contributions c scope = .ok contributions) (part : String × Origin) :
    (contributions.map (·.part)).count part ≤ 2
      ∧ ((contributions.map (·.part)).count part = 2 ↔ g.CountsTwice consumer scope part) := by
  obtain ⟨tools, hosts, rfl, htools, hhosts, htwice⟩ := exists_contexts hc h
  have htool := htools.count_part_le part
  have hhost := hhosts.count_part_le part
  rw [List.map_append, List.count_append, htwice, ← List.count_pos_iff, ← List.count_pos_iff]
  omega

/-- The texts of contributions, in whatever order they are layered. -/
theorem count_textsOn_layeredOps (contributions : List Contribution) (name text : String) :
    (textsOn name (layeredOps contributions)).count text
      = (contributions.flatMap fun contribution => textsOn name contribution.ops).count text := by
  rw [layeredOps, textsOn_flatMap]
  exact (contributions.reverse_perm.flatMap_right _).count_eq text

theorem exists_contributions_of_sequence {ops : List Op}
    (h : g.sequence c profiles scope = .ok ops) :
    ∃ contributions, g.contributions c scope = .ok contributions
      ∧ layeredOps contributions ++ profileOps profiles scope c = ops := by
  rw [sequence_eq] at h
  cases hlisted : g.contributions c scope with
  | error failure =>
      rw [hlisted] at h
      cases h
  | ok contributions =>
      rw [hlisted] at h
      exact ⟨contributions, rfl, Except.ok.inj h⟩

/-- A text that is written once comes once, unless a build environment that writes it counts twice.
-/
theorem count_textsOn_sequence (hc : g.node? consumer = some c) {ops : List Op}
    (h : g.sequence c profiles scope = .ok ops) {name text : String}
    (honce : (g.texts c scope profiles name).count text ≤ 1) :
    (textsOn name ops).count text ≤ 1
      ∨ (textsOn name ops).count text = 2 ∧ ∃ n, g.node? n.id = some n
        ∧ g.InBothContexts consumer scope n.id ∧ text ∈ textsOn name n.buildEnv := by
  obtain ⟨contributions, hlisted, rfl⟩ := exists_contributions_of_sequence h
  obtain ⟨tools, hosts, rfl, htools, hhosts, htwice⟩ := exists_contexts hc hlisted
  rw [texts, List.count_append, textsOn_flatMap] at honce
  rw [textsOn_append, List.count_append, count_textsOn_layeredOps]
  rcases htools.count_append_le hhosts (Nat.le_of_add_right_le honce) with
    hle | ⟨htwo, tool, htool, hhost, htext⟩
  · exact .inl (by omega)
  · have hwritten : text ∈ (g.nodes.flatMap (parts (g.settingsOf scope).os)).flatMap
        fun contribution => textsOn name contribution.ops :=
      List.mem_flatMap.mpr ⟨tool, htools.within htool, htext⟩
    have hpos := List.count_pos_iff.mpr hwritten
    obtain ⟨horigin, hboth, _⟩ :=
      (htwice tool.part).mpr ⟨List.mem_map_of_mem htool, List.mem_map_of_mem hhost⟩
    obtain ⟨n, hn, hin⟩ := List.mem_flatMap.mp (htools.within htool)
    obtain rfl := eq_buildPart_of_mem_parts hin horigin
    exact .inr ⟨by omega, n, node?_of_mem hn, hboth, htext⟩

/-- Every part of a package contributes at most once, however many requirements of whatever kinds
lead to the package, but for the build environment of a package that a build has in both contexts:
that counts in each of them. So a text that is written once stands at most once among the values of
its variable, and twice only if such a build environment writes it. -/
theorem contributes_once {g : Graph} {consumer : String} {scope : Scope} {profiles : List Profile}
    {env : Environment} (h : g.resolve consumer scope profiles = .ok env) :
    ∃ c contributions, g.node? consumer = some c ∧ g.contributions c scope = .ok contributions
      ∧ env.vars = (layered contributions).applyAll (profileOps profiles scope c)
      ∧ (∀ part, (contributions.map (·.part)).count part ≤ 2
        ∧ ((contributions.map (·.part)).count part = 2 ↔ g.CountsTwice consumer scope part))
      ∧ ∀ v ∈ env.vars, ∀ text, (g.texts c scope profiles v.name).count text ≤ 1 →
          v.items.count (.value text) ≤ 1
          ∨ v.items.count (.value text) = 2 ∧ ∃ n, g.node? n.id = some n
            ∧ g.InBothContexts consumer scope n.id ∧ text ∈ textsOn v.name n.buildEnv := by
  obtain ⟨c, ops, hc, hops, rfl⟩ := exists_sequence_of_resolve h
  obtain ⟨contributions, hlisted, heq⟩ := exists_contributions_of_sequence hops
  refine ⟨c, contributions, hc, hlisted, ?_, count_part_contributions hc hlisted,
    fun v hv text honce => ?_⟩
  · have hvars : Variables.applyAll [] (layeredOps contributions ++ profileOps profiles scope c)
        = (layered contributions).applyAll (profileOps profiles scope c) := by
      rw [layered_eq_applyAll]
      exact List.foldl_append
    rw [← hvars, heq]
    rfl
  · have hheld := count_items_ofOps hv text
    rcases count_textsOn_sequence hc hops honce with hone | ⟨htwo, hboth⟩
    · exact .inl (hheld.trans hone)
    · by_cases htwice : v.items.count (.value text) = 2
      · exact .inr ⟨htwice, hboth⟩
      · exact .inl (by omega)

/-- Both the library and the compiler of `toolchain` need the same package. -/
theorem contributes_once_toolchain :
    toolchain.resolve "app" .build [] = .ok toolchainBuild
      ∧ ∃ c contributions, toolchain.node? "app" = some c
        ∧ toolchain.contributions c .build = .ok contributions
        ∧ ∀ origin, (contributions.map (·.part)).count ("zlib", origin) ≤ 1 := by
  obtain ⟨c, contributions, hc, hlisted, _, hparts, _⟩ := contributes_once resolve_toolchain
  refine ⟨resolve_toolchain, c, contributions, hc, hlisted, fun origin => ?_⟩
  obtain ⟨hle, htwice⟩ := hparts ("zlib", origin)
  have hone : ¬ toolchain.CountsTwice "app" .build ("zlib", origin) := by
    have hindirect : "zlib" ∉ toolchain.targets (·.kind == .buildRequires) "app" := by
      decide
    rintro ⟨_, ⟨_, htarget, _⟩, _⟩
    exact hindirect htarget
  rw [← htwice] at hone
  omega

/-- A package that links a library and runs the code generator that comes with it. -/
def client : Node :=
  { Node.ofName "app" with
    requirements := [⟨"protobuf", .requires, true⟩, ⟨"protobuf", .buildRequires, false⟩] }

/-- The package and its library. -/
def generated : Graph where
  nodes := [client, { Node.ofName "protobuf" with buildEnv := [.append "CFLAGS" "-lprotobuf"] }]
  ids_nodup := by decide

/-- The library counts as a tool and as a host package, so that the one text that it writes stands
twice. -/
theorem contributes_twice :
    generated.node? "app" = some client
      ∧ (∃ contributions, generated.contributions client .build = .ok contributions
        ∧ (contributions.map (·.part)).count ("protobuf", .buildEnv) = 2)
      ∧ (generated.texts client .build [] "CFLAGS").count "-lprotobuf" = 1
      ∧ ∃ env, generated.resolve "app" .build [] = .ok env
        ∧ ∃ v ∈ env.vars, v.items.count (.value "-lprotobuf") = 2 := by
  have hlisted : generated.contributions client .build
      = .ok [⟨"protobuf", .buildEnv, [.append "CFLAGS" "-lprotobuf"]⟩,
        ⟨"protobuf", .buildEnv, [.append "CFLAGS" "-lprotobuf"]⟩] := by
    cbv
  have hresolved : generated.resolve "app" .build [] = .ok {
      consumer := "app", scope := .build, os := none
      vars := [⟨"CFLAGS", [.previous, .value "-lprotobuf", .value "-lprotobuf"], .text " "⟩]
      names_nodup := by decide } := by
    cbv
  exact ⟨by decide, ⟨_, hlisted, by decide⟩, by decide, _, hresolved, _, List.mem_cons_self,
    by decide⟩

end Graph

end EnvLayers
