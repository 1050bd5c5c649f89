import EnvLayers.Graph.Load
import EnvLayers.Proofs.Datum.Record
import EnvLayers.Proofs.Graph.Flags

/-
Module: EnvLayers.Proofs.Graph.Declared
Purpose: Graph files that differ in how they declare tools and test requirements: as an id, or as an
  id with a visibility. They declare graphs that differ in the visibility of these alone, or they
  are refused alike.
Main exports: DeclaredRequirement.SameProvider, DeclaredRequirement.sameProvider_id,
  DeclaredGraph.FilesAlike, Graph.map_ofYaml_eq, Graph.map_load_eq
-/

namespace EnvLayers

namespace DeclaredRequirement

/-- The declaration without its visibility. -/
def withoutFlag (decl : DeclaredRequirement) : DeclaredRequirement := { decl with visible := none }

/-- Both values declare a requirement of the same id, or are refused alike. -/
def SameProvider (d d' : Datum) : Prop := (decode d').map withoutFlag = (decode d).map withoutFlag

/-- An id stands for a mapping that says no more. -/
theorem sameProvider_id (id : String) :
    SameProvider (.text id) (.map [(.text "node", .text id)]) := by
  rfl

theorem withoutFlag_toRequirement {kind : RequirementKind} (h : kind ≠ .requires)
    (decl : DeclaredRequirement) :
    (decl.withoutFlag.toRequirement kind).withoutFlag = (decl.toRequirement kind).withoutFlag := by
  simp [toRequirement, Requirement.withoutFlag, withoutFlag, h]

end DeclaredRequirement

namespace DeclaredNode

/-- The same declaration but for the visibility of tools and test requirements. -/
def PackagesAlike : Datum → Datum → Prop :=
  Datum.RecordsAlike ["build_requires", "test_requires"] DeclaredRequirement.SameProvider

/-- The declaration without the visibility of tools and test requirements. -/
def withoutFlags (decl : DeclaredNode) : DeclaredNode :=
  { decl with
    buildRequires := decl.buildRequires.map (·.withoutFlag)
    testRequires := decl.testRequires.map (·.withoutFlag) }

theorem withoutFlags_toNode (decl : DeclaredNode) (name : String) :
    (decl.withoutFlags.toNode name).withoutFlags = (decl.toNode name).withoutFlags := by
  have hlist : ∀ kind, kind ≠ .requires → ∀ decls : List DeclaredRequirement,
      (decls.map (·.withoutFlag)).map (fun r => (r.toRequirement kind).withoutFlag)
        = decls.map fun r => (r.toRequirement kind).withoutFlag := by
    intro kind hkind decls
    rw [List.map_map]
    exact List.map_congr_left fun r _ => r.withoutFlag_toRequirement hkind
  have hbuild := hlist .buildRequires (by decide) decl.buildRequires
  have htest := hlist .testRequires (by decide) decl.testRequires
  simp only [Node.withoutFlags, toNode, requirements, List.map_append, List.map_map,
    Function.comp_def, withoutFlags] at hbuild htest ⊢
  rw [hbuild, htest]

theorem respects_set :
    Datum.Respects ["build_requires", "test_requires"] fieldNames DeclaredRequirement.SameProvider
      set withoutFlags where
  same decl decl' name d h := by
    simp only [withoutFlags, DeclaredNode.mk.injEq] at h
    unfold set
    dsimp only
    split_ifs <;> refine map_pure_congr (fun t => ?_) _ <;> simp only [withoutFlags, h]
  items decl decl' name items items' h hname _ hitems := by
    simp only [withoutFlags, DeclaredNode.mk.injEq] at h
    have hlist := Datum.map_readList_congr (fun _ _ hsame => hsame) hitems
    simp only [List.mem_cons, List.not_mem_nil, or_false] at hname
    rcases hname with rfl | rfl
    · refine map_bind_congr hlist fun list list' hlists => ?_
      simp only [pure, Except.pure, Except.map, withoutFlags, h, hlists]
    · refine map_bind_congr hlist fun list list' hlists => ?_
      simp only [pure, Except.pure, Except.map, withoutFlags, h, hlists]

/-- Packages that are declared alike differ in the visibility of tools and test requirements alone.
-/
theorem map_decode_eq {d d' : Datum} (h : PackagesAlike d d') :
    (decode d').map Node.withoutFlags = (decode d).map Node.withoutFlags := by
  refine map_bind_congr (respects_set.readRecord h "NodeDecl" empty) fun decl decl' hdecl => ?_
  have hname : decl'.name = decl.name := congrArg (·.name) hdecl
  rw [hname]
  cases decl.name with
  | none =>
      rfl
  | some name =>
      refine congrArg Except.ok ?_
      rw [← withoutFlags_toNode, hdecl, withoutFlags_toNode]

end DeclaredNode

namespace DeclaredGraph

/-- The same contents but for the visibility of tools and test requirements. -/
def FilesAlike : Datum → Datum → Prop := Datum.RecordsAlike ["nodes"] DeclaredNode.PackagesAlike

/-- The contents without the visibility of tools and test requirements. -/
def withoutFlags (decl : DeclaredGraph) : DeclaredGraph :=
  { decl with nodes := decl.nodes.map Node.withoutFlags }

theorem respects_decodeVersion :
    Datum.Respects ["nodes"] ["api"] DeclaredNode.PackagesAlike
      (fun _ _ d => decodeVersion d) (id : Unit → Unit) where
  same _ _ _ _ _ := rfl
  items _ _ name _ _ _ hname hknown _ := by
    rw [List.mem_singleton.mp hname] at hknown
    exact absurd hknown (by decide)

theorem respects_set :
    Datum.Respects ["nodes"] fieldNames DeclaredNode.PackagesAlike set withoutFlags where
  same decl decl' name d h := by
    simp only [withoutFlags, DeclaredGraph.mk.injEq] at h
    unfold set
    split_ifs
    · have hversion : (decodeVersion d).map id = (decodeVersion d).map id := rfl
      exact map_bind_congr hversion fun _ _ _ => congrArg Except.ok (by simp only [withoutFlags, h])
    all_goals
      refine map_pure_congr (fun t => ?_) _
      simp only [withoutFlags, h]
  items decl decl' name items items' h hname _ hitems := by
    simp only [withoutFlags, DeclaredGraph.mk.injEq] at h
    obtain rfl := List.mem_singleton.mp hname
    have hlist := Datum.map_readList_congr
      (fun _ _ hnode => DeclaredNode.map_decode_eq hnode) hitems
    refine map_bind_congr hlist fun list list' hlists => ?_
    simp only [pure, Except.pure, Except.map, withoutFlags, h, hlists]

/-- Contents that are alike differ in the visibility of tools and test requirements alone. -/
theorem map_decode_eq {d d' : Datum} (h : FilesAlike d d') :
    (decode d').map withoutFlags = (decode d).map withoutFlags :=
  map_bind_congr (respects_decodeVersion.readRecord h "ApiVersionMapping" ()) fun _ _ _ =>
    respects_set.readRecord h "GraphFile" empty

end DeclaredGraph

namespace Graph

/-- The graph of some contents is declared, or refused, whatever visibility tools and test
requirements have. -/
theorem ofDeclared_withoutFlags (decl : DeclaredGraph) :
    ofDeclared decl.withoutFlags = (ofDeclared decl).map withoutFlags := by
  have hadded : ∀ empty : Graph,
      (empty.withoutFlags.addNodes (decl.nodes.map Node.withoutFlags) >>= fun g =>
          g.validate >>= fun _ => pure g)
        = (empty.addNodes decl.nodes >>= fun g => g.validate >>= fun _ => pure g).map
            withoutFlags := by
    intro empty
    rw [addNodes_withoutFlags]
    cases empty.addNodes decl.nodes with
    | error failure =>
        rfl
    | ok g =>
        simp only [Except.map, bind, Except.bind, validate_withoutFlags]
        cases g.validate <;> rfl
  exact hadded { root := decl.root, settings := decl.settings, buildSettings := decl.buildSettings }

/-- Texts whose contents are alike declare graphs that differ in the visibility of tools and test
requirements alone, or are refused alike. -/
theorem map_ofYaml_eq {text text' : String} {d d' : Datum} (hread : Yaml.read text = .ok d)
    (hread' : Yaml.read text' = .ok d') (h : DeclaredGraph.FilesAlike d d') :
    (ofYaml text').map withoutFlags = (ofYaml text).map withoutFlags := by
  rw [ofYaml, ofYaml, readDeclared, readDeclared, hread, hread']
  simp only [bind, Except.bind]
  rcases map_eq_cases (DeclaredGraph.map_decode_eq h) with
    ⟨fault, hfault, hfault'⟩ | ⟨decl, decl', hdecl, hdecl', hsame⟩
  · rw [hfault, hfault']
  · rw [hdecl, hdecl']
    exact (ofDeclared_withoutFlags decl').symm.trans (hsame ▸ ofDeclared_withoutFlags decl)

theorem rebase_withoutFlags (g : Graph) (path : String) :
    g.withoutFlags.rebase path = (g.rebase path).withoutFlags := by
  simp only [rebase, withoutFlags, mapNodes, mk.injEq, true_and, and_true]
  split
  · rw [List.map_map, List.map_map]
    rfl
  · rfl

/-- Files whose contents are alike hold graphs that differ in the visibility of tools and test
requirements alone, or are refused alike. -/
theorem map_load_eq {files files' : FileView} {path text text' : String} {d d' : Datum}
    (hfile : files.readText path = .ok text) (hfile' : files'.readText path = .ok text')
    (hread : Yaml.read text = .ok d) (hread' : Yaml.read text' = .ok d')
    (h : DeclaredGraph.FilesAlike d d') :
    (load files' path).map withoutFlags = (load files path).map withoutFlags := by
  rw [load, load, hfile, hfile']
  refine map_bind_congr (map_ofYaml_eq hread hread' h) fun g g' hg => congrArg Except.ok ?_
  rw [← rebase_withoutFlags, hg, rebase_withoutFlags]

end Graph

end EnvLayers
