import EnvLayers.Graph.Read
import EnvLayers.Proofs.Datum.Field
import EnvLayers.Proofs.Op.Declared

/-
Module: EnvLayers.Proofs.Graph.Contents
Purpose: What a graph file declares, read off the fields of its records: the root, the settings, and
  the packages in their order, each under its id or else its name, with its requirements kind after
  kind and its operations entry by entry. In which order the fields are written does not matter. A
  file is read exactly where it declares something, and then as what it declares.
Main exports: DeclaredRequirement.DeclaredBy, Layout.DeclaredBy, Node.DeclaredBy,
  DeclaredGraph.DeclaredBy, DeclaredNode.reads_decode, DeclaredGraph.reads_decode
-/

namespace EnvLayers

/-! ### Requirements -/

namespace DeclaredRequirement

/-- A value declares a requirement: an id, or a mapping without tags that has the id and, unless the
requirement is visible, the visibility. -/
inductive DeclaredBy : Datum → DeclaredRequirement → Prop where
  | id (node : String) : DeclaredBy (.text node) ⟨node, none⟩
  | fields {entries : List (Datum × Datum)} {node : String} {visible : Bool} :
      (Datum.map entries).hasTag = false →
      (Datum.map entries).IsAlternative ["node", "visible"] →
      (Datum.map entries).HasField ["node", "visible"] "node" (.text node) →
      (Datum.map entries).HasFlag ["node", "visible"] "visible" true visible →
      DeclaredBy (.map entries) ⟨node, some visible⟩

theorem decode?_map_eq_some_iff {entries : List (Datum × Datum)} {decl : DeclaredRequirement} :
    decode? (.map entries) = some decl ↔ ∃ node visible, decl = ⟨node, some visible⟩
      ∧ (Datum.map entries).IsAlternative ["node", "visible"]
      ∧ (Datum.map entries).HasField ["node", "visible"] "node" (.text node)
      ∧ (Datum.map entries).HasFlag ["node", "visible"] "visible" true visible := by
  have hnames : ["node", "visible"].Nodup := by
    decide
  constructor
  · intro h
    simp only [decode?, Option.bind_eq_bind, Option.bind_eq_some_iff] at h
    obtain ⟨fields, hfields, node, hnode, visible, hvisible, hdecl⟩ := h
    cases hdecl
    have hfound : Datum.fieldsOf ["node", "visible"] (.map entries) = some fields := hfields
    rw [Datum.requiredText_eq_some_iff hnames hfound] at hnode
    rw [Datum.flag_eq_some_iff hnames hfound] at hvisible
    exact ⟨node, visible, rfl, Datum.exists_fieldsOf_iff.mp ⟨fields, hfound⟩, hnode, hvisible⟩
  · rintro ⟨node, visible, rfl, hform, hnode, hvisible⟩
    obtain ⟨fields, hfields⟩ := Datum.exists_fieldsOf_iff.mpr hform
    rw [← Datum.requiredText_eq_some_iff hnames hfields] at hnode
    rw [← Datum.flag_eq_some_iff hnames hfields] at hvisible
    rw [Datum.fieldsOf] at hfields
    simp [decode?, hfields, hnode, hvisible]

theorem reads_decode : Datum.Reads decode DeclaredBy := by
  intro d decl
  rw [decode]
  constructor
  · intro h
    split at h
    · cases h
    · next htag =>
        split at h
        · next found hfound =>
            cases h
            cases d with
            | text node =>
                cases hfound
                exact .id node
            | map entries =>
                obtain ⟨node, visible, rfl, hform, hnode, hvisible⟩ :=
                  decode?_map_eq_some_iff.mp hfound
                exact .fields (eq_false_of_ne_true htag) hform hnode hvisible
            | _ => cases hfound
        · cases h
  · intro h
    cases h with
    | id node =>
        rfl
    | fields htag hform hnode hvisible =>
        have hfound := decode?_map_eq_some_iff.mpr ⟨_, _, rfl, hform, hnode, hvisible⟩
        simp [htag, hfound]

end DeclaredRequirement

theorem reads_decodeOps : Datum.Reads decodeOps (Datum.IsListOf Op.DeclaredBy) :=
  Datum.Reads.list fun _ _ => Op.decode_ok_iff

/-! ### Layouts -/

namespace Layout

/-- Entries give the directories of a layout, where they do not leave them as they are by default.
-/
structure GivenBy (entries : List (Datum × Datum)) (layout : Layout) : Prop where
  binDirs : Datum.Gives entries "bindirs" (Datum.IsListOf Datum.IsText) ["bin"] layout.binDirs
  libDirs : Datum.Gives entries "libdirs" (Datum.IsListOf Datum.IsText) ["lib"] layout.libDirs
  frameworkDirs :
    Datum.Gives entries "frameworkdirs" (Datum.IsListOf Datum.IsText) [] layout.frameworkDirs

/-- A record declares a layout. -/
def DeclaredBy (d : Datum) (layout : Layout) : Prop :=
  ∃ entries, d.IsRecord fieldNames entries ∧ layout.GivenBy entries

/-- Two layouts have the same directories in all fields but one. -/
structure SameBut (field : String) (layout layout' : Layout) : Prop where
  binDirs : field ≠ "bindirs" → layout'.binDirs = layout.binDirs
  libDirs : field ≠ "libdirs" → layout'.libDirs = layout.libDirs
  frameworkDirs : field ≠ "frameworkdirs" → layout'.frameworkDirs = layout.frameworkDirs

theorem sameBut_of_set {layout layout' : Layout} {field : String} {d : Datum}
    (hfield : field ∈ fieldNames) (h : set layout field d = .ok layout') :
    SameBut field layout layout' := by
  obtain ⟨dirs, -, hset⟩ := bind_ok_iff.mp h
  split_ifs at hset
  all_goals
    cases hset
    constructor <;> intro hne <;>
      first
        | rfl
        | contradiction
        | exact absurd hfield (by simp [fieldNames, *])

theorem isField_binDirs :
    Datum.IsField fieldNames set "bindirs" (Datum.IsListOf Datum.IsText) (·.binDirs) :=
  .of_update (fun layout dirs => { layout with binDirs := dirs }) Datum.reads_text.list
    (fun _ _ => rfl) (fun _ _ => rfl) (by decide) fun hfield h => (sameBut_of_set hfield h).binDirs

theorem isField_libDirs :
    Datum.IsField fieldNames set "libdirs" (Datum.IsListOf Datum.IsText) (·.libDirs) :=
  .of_update (fun layout dirs => { layout with libDirs := dirs }) Datum.reads_text.list
    (fun _ _ => rfl) (fun _ _ => rfl) (by decide) fun hfield h => (sameBut_of_set hfield h).libDirs

theorem isField_frameworkDirs :
    Datum.IsField fieldNames set "frameworkdirs" (Datum.IsListOf Datum.IsText) (·.frameworkDirs) :=
  .of_update (fun layout dirs => { layout with frameworkDirs := dirs }) Datum.reads_text.list
    (fun _ _ => rfl) (fun _ _ => rfl) (by decide)
    fun hfield h => (sameBut_of_set hfield h).frameworkDirs

theorem reads_decode : Datum.Reads decode DeclaredBy := by
  intro d layout
  apply Datum.readRecord_ok_iff.trans
  apply exists_congr
  intro entries
  apply and_congr_right
  intro hrecord
  constructor
  · intro hfold
    exact {
      binDirs := isField_binDirs.gives hfold
      libDirs := isField_libDirs.gives hfold
      frameworkDirs := isField_frameworkDirs.gives hfold }
  · intro h
    have hset : ∀ name ∈ fieldNames, Datum.Settable set entries name := by
      simp only [fieldNames, List.forall_mem_cons]
      exact ⟨isField_binDirs.settable_of_gives hrecord.keys h.binDirs,
        isField_libDirs.settable_of_gives hrecord.keys h.libDirs,
        isField_frameworkDirs.settable_of_gives hrecord.keys h.frameworkDirs, nofun⟩
    obtain ⟨found, hfold⟩ := hrecord.exists_foldFields hset .default
    have hbin := (isField_binDirs.gives_iff hfold).mp h.binDirs
    have hlib := (isField_libDirs.gives_iff hfold).mp h.libDirs
    have hframework := (isField_frameworkDirs.gives_iff hfold).mp h.frameworkDirs
    rw [hfold]
    cases found
    cases layout
    simp_all

end Layout

/-! ### Settings -/

namespace Settings

/-- A text names an operating system. -/
def IsSystem (d : Datum) (os : Os) : Prop := ∃ name, d.IsText name ∧ os = Os.ofName name

/-- A record declares some settings. -/
def DeclaredBy (d : Datum) (settings : Settings) : Prop :=
  ∃ entries, d.IsRecord fieldNames entries
    ∧ Datum.Gives entries "os" (Datum.IsOptional IsSystem) none settings.os

theorem isField_os : Datum.IsField fieldNames set "os" (Datum.IsOptional IsSystem) (·.os) :=
  .of_update (fun _ os => ⟨os⟩) (Datum.reads_text.map Os.ofName).optional
    (fun _ d => by
      rw [Datum.readOptional_map, set]
      cases d.readOptional Datum.readText <;> rfl)
    (fun _ _ => rfl) List.mem_cons_self
    (fun hfield _ hne => absurd (List.mem_singleton.mp hfield) hne)

theorem reads_decode : Datum.Reads decode DeclaredBy := by
  intro d settings
  apply Datum.readRecord_ok_iff.trans
  apply exists_congr
  intro entries
  apply and_congr_right
  intro hrecord
  constructor
  · intro hfold
    exact isField_os.gives hfold
  · intro h
    have hset : ∀ name ∈ fieldNames, Datum.Settable set entries name :=
      List.forall_mem_singleton.mpr (isField_os.settable_of_gives hrecord.keys h)
    obtain ⟨found, hfold⟩ := hrecord.exists_foldFields hset ⟨none⟩
    have hos := (isField_os.gives_iff hfold).mp h
    rw [hfold]
    exact congrArg Except.ok (congrArg Settings.mk hos)

end Settings

/-! ### Packages -/

/-- Entries give the parts of a package. The id is the name where there is none. -/
structure Node.GivenBy (entries : List (Datum × Datum)) (n : Node) : Prop where
  name : ∃ key value, (key, value) ∈ entries ∧ key.IsText "name" ∧ value.IsText n.name
  id : ∃ id, Datum.Gives entries "id" (Datum.IsOptional Datum.IsText) none id
    ∧ n.id = id.getD n.name
  requirements : ∃ hosts tools tests,
    Datum.Gives entries "requires" (Datum.IsListOf DeclaredRequirement.DeclaredBy) [] hosts
      ∧ Datum.Gives entries "build_requires" (Datum.IsListOf DeclaredRequirement.DeclaredBy) []
        tools
      ∧ Datum.Gives entries "test_requires" (Datum.IsListOf DeclaredRequirement.DeclaredBy) []
        tests
      ∧ n.requirements = hosts.map (·.toRequirement .requires)
        ++ tools.map (·.toRequirement .buildRequires) ++ tests.map (·.toRequirement .testRequires)
  buildEnv : Datum.Gives entries "buildenv" (Datum.IsListOf Op.DeclaredBy) [] n.buildEnv
  runEnv : Datum.Gives entries "runenv" (Datum.IsListOf Op.DeclaredBy) [] n.runEnv
  folder : Datum.Gives entries "package_folder" (Datum.IsOptional Datum.IsText) none n.folder
  layout : Datum.Gives entries "cpp_info" Layout.DeclaredBy .default n.layout

/-- A record declares a package. -/
def Node.DeclaredBy (d : Datum) (n : Node) : Prop :=
  ∃ entries, d.IsRecord DeclaredNode.fieldNames entries ∧ n.GivenBy entries

namespace DeclaredNode

/-- Two declarations have the same in all fields but one. -/
structure SameBut (field : String) (decl decl' : DeclaredNode) : Prop where
  name : field ≠ "name" → decl'.name = decl.name
  id : field ≠ "id" → decl'.id = decl.id
  requires : field ≠ "requires" → decl'.requires = decl.requires
  buildRequires : field ≠ "build_requires" → decl'.buildRequires = decl.buildRequires
  testRequires : field ≠ "test_requires" → decl'.testRequires = decl.testRequires
  buildEnv : field ≠ "buildenv" → decl'.buildEnv = decl.buildEnv
  runEnv : field ≠ "runenv" → decl'.runEnv = decl.runEnv
  folder : field ≠ "package_folder" → decl'.folder = decl.folder
  layout : field ≠ "cpp_info" → decl'.layout = decl.layout

theorem sameBut_of_set {decl decl' : DeclaredNode} {field : String} {d : Datum}
    (hfield : field ∈ fieldNames) (h : set decl field d = .ok decl') :
    SameBut field decl decl' := by
  unfold set at h
  dsimp only at h
  split_ifs at h
  all_goals
    obtain ⟨value, -, hset⟩ := bind_ok_iff.mp h
    cases hset
    constructor <;> intro hne <;>
      first
        | rfl
        | contradiction
        | exact absurd hfield (by simp [fieldNames, *])

theorem isField_name : Datum.IsField fieldNames set "name"
    (fun d name => ∃ text, d.IsText text ∧ name = some text) (·.name) :=
  .of_update (fun decl name => { decl with name }) (Datum.reads_text.map some)
    (fun _ d => by cases h : d.readText <;> simp [set, h, Except.map]) (fun _ _ => rfl) (by decide)
    fun hfield h => (sameBut_of_set hfield h).name

theorem isField_id :
    Datum.IsField fieldNames set "id" (Datum.IsOptional Datum.IsText) (·.id) :=
  .of_update (fun decl id => { decl with id }) Datum.reads_text.optional (fun _ _ => rfl)
    (fun _ _ => rfl) (by decide) fun hfield h => (sameBut_of_set hfield h).id

theorem isField_requires : Datum.IsField fieldNames set "requires"
    (Datum.IsListOf DeclaredRequirement.DeclaredBy) (·.requires) :=
  .of_update (fun decl requires => { decl with requires }) DeclaredRequirement.reads_decode.list
    (fun _ _ => rfl) (fun _ _ => rfl) (by decide) fun hfield h => (sameBut_of_set hfield h).requires

theorem isField_buildRequires : Datum.IsField fieldNames set "build_requires"
    (Datum.IsListOf DeclaredRequirement.DeclaredBy) (·.buildRequires) :=
  .of_update (fun decl buildRequires => { decl with buildRequires })
    DeclaredRequirement.reads_decode.list (fun _ _ => rfl) (fun _ _ => rfl) (by decide)
    fun hfield h => (sameBut_of_set hfield h).buildRequires

theorem isField_testRequires : Datum.IsField fieldNames set "test_requires"
    (Datum.IsListOf DeclaredRequirement.DeclaredBy) (·.testRequires) :=
  .of_update (fun decl testRequires => { decl with testRequires })
    DeclaredRequirement.reads_decode.list (fun _ _ => rfl) (fun _ _ => rfl) (by decide)
    fun hfield h => (sameBut_of_set hfield h).testRequires

theorem isField_buildEnv :
    Datum.IsField fieldNames set "buildenv" (Datum.IsListOf Op.DeclaredBy) (·.buildEnv) :=
  .of_update (fun decl buildEnv => { decl with buildEnv }) reads_decodeOps (fun _ _ => rfl)
    (fun _ _ => rfl) (by decide) fun hfield h => (sameBut_of_set hfield h).buildEnv

theorem isField_runEnv :
    Datum.IsField fieldNames set "runenv" (Datum.IsListOf Op.DeclaredBy) (·.runEnv) :=
  .of_update (fun decl runEnv => { decl with runEnv }) reads_decodeOps (fun _ _ => rfl)
    (fun _ _ => rfl) (by decide) fun hfield h => (sameBut_of_set hfield h).runEnv

theorem isField_folder : Datum.IsField fieldNames set "package_folder"
    (Datum.IsOptional Datum.IsText) (·.folder) :=
  .of_update (fun decl folder => { decl with folder }) Datum.reads_path.optional (fun _ _ => rfl)
    (fun _ _ => rfl) (by decide) fun hfield h => (sameBut_of_set hfield h).folder

theorem isField_layout : Datum.IsField fieldNames set "cpp_info" Layout.DeclaredBy (·.layout) :=
  .of_update (fun decl layout => { decl with layout }) Layout.reads_decode (fun _ _ => rfl)
    (fun _ _ => rfl) (by decide) fun hfield h => (sameBut_of_set hfield h).layout

/-- A name that entries give is written there. -/
theorem gives_name_iff {entries : List (Datum × Datum)} {name : String} :
    Datum.Gives entries "name" (fun d name => ∃ text, d.IsText text ∧ name = some text) none
        (some name)
      ↔ ∃ key value, (key, value) ∈ entries ∧ key.IsText "name" ∧ value.IsText name := by
  constructor
  · intro h
    cases h with
    | given hmem hkey hname =>
        obtain ⟨text, htext, heq⟩ := hname
        cases heq
        exact ⟨_, _, hmem, hkey, htext⟩
  · rintro ⟨key, value, hmem, hkey, htext⟩
    exact .given hmem hkey ⟨name, htext, rfl⟩

theorem givenBy_of_foldFields {entries : List (Datum × Datum)} {decl : DeclaredNode} {name : String}
    (hfold : Datum.foldFields fieldNames set [] empty entries = .ok decl)
    (hname : decl.name = some name) : (decl.toNode name).GivenBy entries where
  name := gives_name_iff.mp ((isField_name.gives_iff hfold).mpr hname)
  id := ⟨decl.id, isField_id.gives hfold, rfl⟩
  requirements := ⟨decl.requires, decl.buildRequires, decl.testRequires,
    isField_requires.gives hfold, isField_buildRequires.gives hfold,
    isField_testRequires.gives hfold, rfl⟩
  buildEnv := isField_buildEnv.gives hfold
  runEnv := isField_runEnv.gives hfold
  folder := isField_folder.gives hfold
  layout := isField_layout.gives hfold

/-- A package that a record declares is what the record is read as. -/
theorem exists_of_givenBy {d : Datum} {entries : List (Datum × Datum)} {n : Node}
    (hrecord : d.IsRecord fieldNames entries) (h : n.GivenBy entries) :
    ∃ decl, Datum.foldFields fieldNames set [] empty entries = .ok decl ∧ decl.name = some n.name
      ∧ decl.toNode n.name = n := by
  have hname := gives_name_iff.mpr h.name
  obtain ⟨id, hid, hidEq⟩ := h.id
  obtain ⟨hosts, tools, tests, hhosts, htools, htests, hrequirements⟩ := h.requirements
  have hset : ∀ name ∈ fieldNames, Datum.Settable set entries name := by
    simp only [fieldNames, List.forall_mem_cons]
    exact ⟨isField_name.settable_of_gives hrecord.keys hname,
      isField_id.settable_of_gives hrecord.keys hid,
      isField_requires.settable_of_gives hrecord.keys hhosts,
      isField_buildRequires.settable_of_gives hrecord.keys htools,
      isField_testRequires.settable_of_gives hrecord.keys htests,
      isField_buildEnv.settable_of_gives hrecord.keys h.buildEnv,
      isField_runEnv.settable_of_gives hrecord.keys h.runEnv,
      isField_folder.settable_of_gives hrecord.keys h.folder,
      isField_layout.settable_of_gives hrecord.keys h.layout, nofun⟩
  obtain ⟨decl, hfold⟩ := hrecord.exists_foldFields hset empty
  refine ⟨decl, hfold, (isField_name.gives_iff hfold).mp hname, ?_⟩
  rw [toNode, requirements, (isField_id.gives_iff hfold).mp hid,
    (isField_requires.gives_iff hfold).mp hhosts, (isField_buildRequires.gives_iff hfold).mp htools,
    (isField_testRequires.gives_iff hfold).mp htests,
    (isField_buildEnv.gives_iff hfold).mp h.buildEnv,
    (isField_runEnv.gives_iff hfold).mp h.runEnv, (isField_folder.gives_iff hfold).mp h.folder,
    (isField_layout.gives_iff hfold).mp h.layout, ← hidEq, ← hrequirements]

theorem reads_decode : Datum.Reads decode Node.DeclaredBy := by
  intro d n
  rw [decode, bind_ok_iff]
  constructor
  · rintro ⟨decl, hdecl, hnode⟩
    obtain ⟨entries, hrecord, hfold⟩ := Datum.readRecord_ok_iff.mp hdecl
    cases hname : decl.name with
    | none =>
        rw [hname] at hnode
        cases hnode
    | some name =>
        rw [hname] at hnode
        cases hnode
        exact ⟨entries, hrecord, givenBy_of_foldFields hfold hname⟩
  · rintro ⟨entries, hrecord, hgiven⟩
    obtain ⟨decl, hfold, hname, hnode⟩ := exists_of_givenBy hrecord hgiven
    refine ⟨decl, Datum.readRecord_ok_iff.mpr ⟨entries, hrecord, hfold⟩, ?_⟩
    rw [hname]
    exact congrArg Except.ok hnode

end DeclaredNode

/-! ### Graphs -/

namespace DeclaredGraph

/-- A value names the known version: as a text, or as a tag on nothing. -/
inductive IsVersion : Datum → Prop where
  | text : IsVersion (.text "depenv/v0")
  | tag {tag : String} : Datum.tagName tag = "depenv/v0" → IsVersion (.tagged tag .null)

/-- Entries give the contents of a graph: its root, its settings, and its packages in order. -/
structure GivenBy (entries : List (Datum × Datum)) (decl : DeclaredGraph) : Prop where
  version : ∀ entry ∈ entries, entry.1.IsText "api" → IsVersion entry.2
  root : Datum.Gives entries "root" (Datum.IsOptional Datum.IsText) none decl.root
  settings : Datum.Gives entries "settings" Settings.DeclaredBy ⟨none⟩ decl.settings
  buildSettings : Datum.Gives entries "settings_build" Settings.DeclaredBy ⟨none⟩ decl.buildSettings
  nodes : Datum.Gives entries "nodes" (Datum.IsListOf Node.DeclaredBy) [] decl.nodes

/-- A document declares the contents of a graph. -/
def DeclaredBy (d : Datum) (decl : DeclaredGraph) : Prop :=
  ∃ entries, d.IsRecord fieldNames entries ∧ decl.GivenBy entries

theorem reads_decodeVersion : Datum.Reads decodeVersion fun d _ => IsVersion d := by
  have hcheck : ∀ name, checkVersion name = .ok () ↔ name = "depenv/v0" := by
    intro name
    rw [checkVersion, version]
    split <;> simp_all
  rintro d ⟨⟩
  constructor
  · intro h
    unfold decodeVersion at h
    split at h
    · next name =>
        rw [(hcheck name).mp h]
        exact .text
    · next tag content =>
        obtain ⟨htag, hcontent⟩ := check_ok_iff.mp h
        split at hcontent
        · exact .tag ((hcheck _).mp htag)
        · cases hcontent
    · cases h
  · intro h
    cases h with
    | text => exact (hcheck _).mpr rfl
    | tag htag => exact bind_ok_iff.mpr ⟨(), (hcheck _).mpr htag, rfl⟩

/-- Two contents have the same in all fields but one. -/
structure SameBut (field : String) (decl decl' : DeclaredGraph) : Prop where
  root : field ≠ "root" → decl'.root = decl.root
  settings : field ≠ "settings" → decl'.settings = decl.settings
  buildSettings : field ≠ "settings_build" → decl'.buildSettings = decl.buildSettings
  nodes : field ≠ "nodes" → decl'.nodes = decl.nodes

theorem sameBut_of_set {decl decl' : DeclaredGraph} {field : String} {d : Datum}
    (hfield : field ∈ fieldNames) (h : set decl field d = .ok decl') :
    SameBut field decl decl' := by
  unfold set at h
  split_ifs at h
  all_goals
    obtain ⟨value, -, hset⟩ := bind_ok_iff.mp h
    cases hset
    constructor <;> intro hne <;>
      first
        | rfl
        | contradiction
        | exact absurd hfield (by simp [fieldNames, *])

theorem isField_api :
    Datum.IsField fieldNames set "api" (fun d _ => IsVersion d) (fun _ => ()) :=
  .of_update (fun decl _ => decl) reads_decodeVersion (fun _ _ => rfl) (fun _ _ => rfl) (by decide)
    fun _ _ _ => rfl

theorem isField_root :
    Datum.IsField fieldNames set "root" (Datum.IsOptional Datum.IsText) (·.root) :=
  .of_update (fun decl root => { decl with root }) Datum.reads_text.optional (fun _ _ => rfl)
    (fun _ _ => rfl) (by decide) fun hfield h => (sameBut_of_set hfield h).root

theorem isField_settings :
    Datum.IsField fieldNames set "settings" Settings.DeclaredBy (·.settings) :=
  .of_update (fun decl settings => { decl with settings }) Settings.reads_decode (fun _ _ => rfl)
    (fun _ _ => rfl) (by decide) fun hfield h => (sameBut_of_set hfield h).settings

theorem isField_buildSettings :
    Datum.IsField fieldNames set "settings_build" Settings.DeclaredBy (·.buildSettings) :=
  .of_update (fun decl buildSettings => { decl with buildSettings }) Settings.reads_decode
    (fun _ _ => rfl) (fun _ _ => rfl) (by decide)
    fun hfield h => (sameBut_of_set hfield h).buildSettings

theorem isField_nodes :
    Datum.IsField fieldNames set "nodes" (Datum.IsListOf Node.DeclaredBy) (·.nodes) :=
  .of_update (fun decl nodes => { decl with nodes }) DeclaredNode.reads_decode.list (fun _ _ => rfl)
    (fun _ _ => rfl) (by decide) fun hfield h => (sameBut_of_set hfield h).nodes

/-- Contents that are given are what entries are read as. -/
theorem foldFields_ok_iff {d : Datum} {entries : List (Datum × Datum)} {decl : DeclaredGraph}
    (hrecord : d.IsRecord fieldNames entries) :
    Datum.foldFields fieldNames set [] empty entries = .ok decl ↔ decl.GivenBy entries := by
  constructor
  · intro hfold
    have hapi := isField_api.gives hfold
    exact {
      version := fun entry hentry hkey =>
        hapi.holds_of_mem hrecord.keys isField_api.mem hentry hkey
      root := isField_root.gives hfold
      settings := isField_settings.gives hfold
      buildSettings := isField_buildSettings.gives hfold
      nodes := isField_nodes.gives hfold }
  · intro h
    have hapi : Datum.Settable set entries "api" :=
      fun entry hentry hkey _ => isField_api.settable ⟨(), h.version entry hentry hkey⟩
    have hset : ∀ name ∈ fieldNames, Datum.Settable set entries name := by
      simp only [fieldNames, List.forall_mem_cons]
      exact ⟨hapi, isField_root.settable_of_gives hrecord.keys h.root,
        isField_settings.settable_of_gives hrecord.keys h.settings,
        isField_buildSettings.settable_of_gives hrecord.keys h.buildSettings,
        isField_nodes.settable_of_gives hrecord.keys h.nodes, nofun⟩
    obtain ⟨found, hfold⟩ := hrecord.exists_foldFields hset empty
    have hroot := (isField_root.gives_iff hfold).mp h.root
    have hsettings := (isField_settings.gives_iff hfold).mp h.settings
    have hbuildSettings := (isField_buildSettings.gives_iff hfold).mp h.buildSettings
    have hnodes := (isField_nodes.gives_iff hfold).mp h.nodes
    rw [hfold]
    cases found
    cases decl
    simp_all

/-- A document is read as the contents that it declares, and is refused if it declares none. -/
theorem reads_decode : Datum.Reads decode DeclaredBy := by
  intro d decl
  rw [decode, check_ok_iff]
  constructor
  · rintro ⟨-, hdecl⟩
    obtain ⟨entries, hrecord, hfold⟩ := Datum.readRecord_ok_iff.mp hdecl
    exact ⟨entries, hrecord, (foldFields_ok_iff hrecord).mp hfold⟩
  · rintro ⟨entries, hrecord, hgiven⟩
    have hversion : d.IsRecord ["api"] entries :=
      ⟨hrecord.mapping, hrecord.keys.mono (by simp [fieldNames])⟩
    have hset : ∀ name ∈ ["api"],
        Datum.Settable (fun (_ : Unit) _ d => decodeVersion d) entries name :=
      List.forall_mem_singleton.mpr fun entry hentry hkey _ =>
        ⟨(), (reads_decodeVersion _ ()).mpr (hgiven.version entry hentry hkey)⟩
    obtain ⟨⟨⟩, hfold⟩ := hversion.exists_foldFields hset ()
    exact ⟨Datum.readRecord_ok_iff.mpr ⟨entries, hversion, hfold⟩,
      Datum.readRecord_ok_iff.mpr ⟨entries, hrecord, (foldFields_ok_iff hrecord).mpr hgiven⟩⟩

end DeclaredGraph

end EnvLayers
