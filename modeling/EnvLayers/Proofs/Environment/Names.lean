import EnvLayers.Proofs.Environment.View
import EnvLayers.Proofs.Graph.Validate
import EnvLayers.Proofs.Profile.Names
import EnvLayers.Proofs.Shell.Token

/-
Module: EnvLayers.Proofs.Environment.Names
Purpose: Which names the variables of an environment can have. A checked graph brings only names
  that a script can hold without quotes; the lines of a profile bring any name without blanks,
  equals signs and colons.
Main exports: Graph.isVariableName_implicitRunEnv, Graph.exists_graphOps, Graph.names_valid_iff
-/

namespace EnvLayers.Graph

variable {g : Graph} {scope : Scope} {profiles : List Profile}

/-- The variables that follow from a layout can be used in a script. -/
theorem isVariableName_implicitRunEnv {n : Node} {os : Option Os} :
    ∀ op ∈ n.implicitRunEnv os, isVariableName op.name := by
  have hpaths : (Node.searchedDirs n.layout os).map (·.1)
      ⊆ ["PATH", "LD_LIBRARY_PATH", "DYLD_LIBRARY_PATH", "DYLD_FRAMEWORK_PATH"] := by
    unfold Node.searchedDirs
    split <;> simp [Node.loaderDirs]
  have hnames : ∀ path ∈ ["PATH", "LD_LIBRARY_PATH", "DYLD_LIBRARY_PATH", "DYLD_FRAMEWORK_PATH"],
      isVariableName path := by
    decide
  intro op hop
  unfold Node.implicitRunEnv at hop
  split at hop
  · cases hop
  · obtain ⟨entry, hentry, hmem⟩ := List.mem_flatMap.mp hop
    obtain ⟨dir, -, rfl⟩ := List.mem_map.mp hmem
    exact hnames entry.1 (hpaths (List.mem_map.mpr ⟨entry, hentry, rfl⟩))

/-- The packages of a closure are packages of the graph. -/
theorem mem_nodes_of_closure {follow : Requirement → Bool} {requirements : List Requirement}
    {nodes : List Node} (h : g.closure follow requirements = .ok nodes) {n : Node}
    (hn : n ∈ nodes) : n ∈ g.nodes :=
  List.mem_of_find?_eq_some ((closure_ok_spec h).2.2.declared n hn)

/-- The operations of an environment are some that packages of the graph declare or that follow from
their layout, and those of the profiles on top. -/
theorem exists_graphOps {c : Node} {ops : List Op} (h : g.sequence c profiles scope = .ok ops) :
    ∃ graphOps, ops = graphOps ++ profileOps profiles scope c
      ∧ ∀ op ∈ graphOps, ∃ n ∈ g.nodes,
        op ∈ n.buildEnv ++ n.runEnv ∨ op ∈ n.implicitRunEnv (g.settingsOf scope).os := by
  cases scope with
  | run =>
      obtain ⟨nodes, hnodes, hops⟩ := bind_ok_iff.mp h
      cases hops
      refine ⟨_, rfl, fun op hop => ?_⟩
      obtain ⟨n, hn, hpart⟩ := List.mem_flatMap.mp hop
      refine ⟨n, mem_nodes_of_closure hnodes (List.mem_reverse.mp hn), ?_⟩
      rcases List.mem_append.mp hpart with himplicit | hdeclared
      · exact .inr himplicit
      · exact .inl (List.mem_append_right _ hdeclared)
  | build =>
      obtain ⟨tools, htools, h⟩ := bind_ok_iff.mp h
      obtain ⟨hosts, hhosts, hops⟩ := bind_ok_iff.mp h
      cases hops
      refine ⟨_, rfl, fun op hop => ?_⟩
      rcases List.mem_append.mp hop with hhost | htool
      · obtain ⟨n, hn, hdeclared⟩ := List.mem_flatMap.mp hhost
        exact ⟨n, mem_nodes_of_closure hhosts (List.mem_reverse.mp hn),
          .inl (List.mem_append_left _ hdeclared)⟩
      · obtain ⟨n, hn, hpart⟩ := List.mem_flatMap.mp htool
        refine ⟨n, mem_nodes_of_closure htools (List.mem_reverse.mp hn), ?_⟩
        rcases List.mem_append.mp hpart with hrun | hbuild
        · rcases List.mem_append.mp hrun with himplicit | hdeclared
          · exact .inr himplicit
          · exact .inl (List.mem_append_right _ hdeclared)
        · split at hbuild
          · exact .inl (List.mem_append_left _ hbuild)
          · cases hbuild

theorem code_of_isNameRest {c : Char} (h : isNameRest c) : 48 ≤ c.toNat ∧ c.toNat ≤ 122 := by
  simp only [isNameRest, Char.isAlphanum, Char.isAlpha, Char.isUpper, Char.isLower, Char.isDigit,
    Bool.or_eq_true, Bool.and_eq_true, decide_eq_true_eq, beq_iff_eq] at h
  rcases h with ((hupper | hlower) | hdigit) | rfl
  · have hcode : 65 ≤ c.toNat ∧ c.toNat ≤ 90 := hupper
    omega
  · have hcode : 97 ≤ c.toNat ∧ c.toNat ≤ 122 := hlower
    omega
  · have hcode : 48 ≤ c.toNat ∧ c.toNat ≤ 57 := hdigit
    omega
  · decide

theorem isBlank_of_isNameRest {c : Char} (h : isNameRest c) : Text.isBlank c = false := by
  have hcode := code_of_isNameRest h
  have houtside : ∀ range ∈ Text.blankRanges, range.2 < 48 ∨ 122 < range.1 := by
    decide
  unfold Text.isBlank Text.CharRange.mem
  rw [List.any_eq_false]
  intro range hrange
  have hrangeOutside := houtside range hrange
  simp only [Bool.and_eq_true, decide_eq_true_eq, not_and, not_le]
  omega

/-- A name that a script can hold could also stand on a line of a profile. -/
theorem isName_of_isVariableName {name : String} (h : isVariableName name) : Line.IsName name := by
  refine ⟨?_, fun c hc => ?_⟩
  · rintro rfl
    cases h
  · have hrest := Shell.isNameRest_of_isVariableName h c hc
    exact ⟨isBlank_of_isNameRest hrest, Shell.ne_of_isNameRest hrest rfl,
      Shell.ne_of_isNameRest hrest rfl⟩

/-- Of a checked graph and profiles that are read from texts, the variables can be used in a script
exactly when the profiles define no other for the consumer. The graph brings no other; the names
that the profiles bring are not empty and hold no blanks, equals signs and colons, which is all that
is asked of them. -/
theorem names_valid_iff {consumer : String} {env : Environment} (hvalid : g.validate = .ok ())
    (hparsed : ∀ p ∈ profiles, ∃ text, Profile.parse text = .ok p)
    (h : g.resolve consumer scope profiles = .ok env) :
    (∀ name ∈ env.names, Line.IsName name)
      ∧ ((∀ name ∈ env.names, isVariableName name)
        ↔ ∀ c, g.node? consumer = some c →
          ∀ op ∈ profileOps profiles scope c, isVariableName op.name) := by
  obtain ⟨c, ops, hc, hops, rfl⟩ := exists_sequence_of_resolve h
  obtain ⟨graphOps, rfl, hgraph⟩ := exists_graphOps hops
  have hchecked := validate_ok_iff.mp hvalid
  have hgraphNames : ∀ op ∈ graphOps, isVariableName op.name := by
    intro op hop
    obtain ⟨n, hn, hdeclared | himplicit⟩ := hgraph op hop
    · exact hchecked.names n hn op hdeclared
    · exact isVariableName_implicitRunEnv op himplicit
  have hprofileNames : ∀ op ∈ profileOps profiles scope c, Line.IsName op.name := by
    have hall : (Profile.compose profiles).Forall fun op => Line.IsName op.name :=
      Profile.Forall.compose fun p hp => by
        obtain ⟨text, htext⟩ := hparsed p hp
        exact Profile.forall_parse htext
    exact (hall scope).select c.name
  constructor
  · intro name hname
    obtain ⟨op, hop, rfl⟩ := mem_names_ofOps.mp hname
    rcases List.mem_append.mp hop with hop | hop
    · exact isName_of_isVariableName (hgraphNames op hop)
    · exact hprofileNames op hop
  · constructor
    · intro hnames other hother op hop
      cases hc.symm.trans hother
      exact hnames op.name (mem_names_ofOps.mpr ⟨op, List.mem_append_right _ hop, rfl⟩)
    · intro hprofiles name hname
      obtain ⟨op, hop, rfl⟩ := mem_names_ofOps.mp hname
      rcases List.mem_append.mp hop with hop | hop
      · exact hgraphNames op hop
      · exact hprofiles c hc op hop

/-- A package alone. -/
def lone : Graph where
  nodes := [Node.ofName "app"]
  ids_nodup := (by decide : ["app"].Nodup)

/-- A profile with a variable for all packages, and one for some that no script can hold. -/
def oddlyNamed (pattern : Option String) : Profile :=
  { Profile.empty with
    runEnv := ⟨[(some "app", [.define "DEBUG" "1"]), (pattern, [.define "A;B" "1"])]⟩ }

/-- A name that a profile gives to another package does not count. -/
theorem names_valid_lone :
    ∃ env, lone.validate = .ok ()
      ∧ Profile.parse "[runenv]\napp:DEBUG=1\nlib:A;B=1\n" = .ok (oddlyNamed (some "lib"))
      ∧ lone.resolve "app" .run [oddlyNamed (some "lib")] = .ok env ∧ env.names = ["DEBUG"]
      ∧ ∀ name ∈ env.names, isVariableName name := by
  have hvalid : lone.validate = .ok () := by
    cbv
  have hparse : Profile.parse "[runenv]\napp:DEBUG=1\nlib:A;B=1\n"
      = .ok (oddlyNamed (some "lib")) := by
    cbv
  have hresolved : lone.resolve "app" .run [oddlyNamed (some "lib")]
      = .ok (ofOps "app" .run none [.define "DEBUG" "1"]) := by
    cbv
  have hparsed : ∀ p ∈ [oddlyNamed (some "lib")], ∃ text, Profile.parse text = .ok p := by
    intro p hp
    exact ⟨_, List.mem_singleton.mp hp ▸ hparse⟩
  refine ⟨_, hvalid, hparse, hresolved, by decide, ?_⟩
  refine (names_valid_iff hvalid hparsed hresolved).2.mpr ?_
  intro c hc op hop
  have happ : lone.node? "app" = some (Node.ofName "app") := by
    decide
  have hops : profileOps [oddlyNamed (some "lib")] .run (Node.ofName "app")
      = [.define "DEBUG" "1"] := by
    cbv
  rw [happ, Option.some.injEq] at hc
  rw [← hc, hops, List.mem_singleton] at hop
  subst hop
  decide

/-- A profile defines a variable whose name would end a command of a script. -/
theorem names_not_valid :
    ∃ env, lone.validate = .ok ()
      ∧ Profile.parse "[runenv]\napp:DEBUG=1\nA;B=1\n" = .ok (oddlyNamed none)
      ∧ lone.resolve "app" .run [oddlyNamed none] = .ok env
      ∧ ∃ name ∈ env.names, ¬ isVariableName name := by
  have hvalid : lone.validate = .ok () := by
    cbv
  have hparse : Profile.parse "[runenv]\napp:DEBUG=1\nA;B=1\n" = .ok (oddlyNamed none) := by
    cbv
  have hresolved : lone.resolve "app" .run [oddlyNamed none]
      = .ok (ofOps "app" .run none [.define "DEBUG" "1", .define "A;B" "1"]) := by
    cbv
  exact ⟨_, hvalid, hparse, hresolved, "A;B", by decide, by decide⟩

end EnvLayers.Graph
