import EnvLayers.Proofs.Graph.Acceptance
import EnvLayers.Proofs.Graph.TemplateTokens
import EnvLayers.Proofs.Yaml.Spelling

/-
Module: EnvLayers.Proofs.Graph.Template
Purpose: What graph a new graph file holds: the one that it was made for, where the ids can stand
  without quotes at their places and are no words or numbers with a meaning of their own.
Main exports: Template.read_text, Template.contents, Template.ofYaml_text_iff
-/

namespace EnvLayers.Template

open Yaml hiding Node

/-! ### The value -/

/-- A package that has nothing but a name. -/
def packageDatum (name : Datum) : Datum := .map [(.text "name", name)]

/-- A package with a name and requirements. -/
def consumerDatum (name : Datum) (requires : List Datum) : Datum :=
  .map [(.text "name", name), (.text "requires", .seq requires)]

/-- A graph file, where the ids may stand for any values. -/
def fileDatum (root : Datum) (requires : List Datum) : Datum :=
  .map [(.text "api", .text "depenv/v0"), (.text "root", root),
    (.text "nodes", .seq (consumerDatum root requires :: requires.map packageDatum))]

/-- The words that templates write themselves. -/
theorem isText_word : ∀ word ∈ ["api", "depenv/v0", "root", "nodes", "name", "requires"],
    Plain.isText word := by
  decide +kernel

theorem spells_package (id : String) :
    Spells 1 (packageTokens id) ((Yaml.Node.plainDatum id).map packageDatum) := by
  have h := Spells.map (SpellsEntries.cons (isText_word "name" (by simp)) List.not_mem_nil
    (Spells.plain id) (SpellsEntries.nil 0))
  -- The value is one if the id has one, and then both sides compute to it.
  generalize Yaml.Node.plainDatum id = v at h ⊢
  cases v <;> exact h

theorem spells_packages (ids : List String) :
    SpellsItems 2 (packagesTokens ids)
      ((ids.mapM Yaml.Node.plainDatum).map (·.map packageDatum)) := by
  induction ids with
  | nil => exact SpellsItems.nil 2
  | cons id ids ih =>
      have h := SpellsItems.cons ((spells_package id).mono (by decide)) ih
      rw [List.mapM_cons]
      generalize Yaml.Node.plainDatum id = v, ids.mapM Yaml.Node.plainDatum = vs at h ⊢
      cases v <;> cases vs <;> exact h

theorem spells_consumer (root : String) (requires : List String) :
    Spells 2 (consumerTokens root requires) ((Yaml.Node.plainDatum root).bind fun d =>
      (requires.mapM Yaml.Node.plainDatum).map (consumerDatum d)) := by
  have hrequires := SpellsEntries.cons (isText_word "requires" (by simp)) List.not_mem_nil
    (Spells.flow (requires.map String.toList)) (SpellsEntries.nil 1)
  have h := Spells.map (SpellsEntries.cons (isText_word "name" (by simp)) (by simp)
    ((Spells.plain root).mono (Nat.zero_le 1)) hrequires)
  have htexts : (requires.map String.toList).map String.ofList = requires := by
    simp
  rw [htexts] at h
  generalize Yaml.Node.plainDatum root = v, requires.mapM Yaml.Node.plainDatum = vs at h ⊢
  cases v <;> cases vs <;> exact h

/-- What the tokens of a graph file spell. -/
theorem spells_file (root : String) (requires : List String) :
    Spells 4 (fileTokens root requires) ((Yaml.Node.plainDatum root).bind fun d =>
      (requires.mapM Yaml.Node.plainDatum).map (fileDatum d)) := by
  have hnodes := SpellsEntries.cons (isText_word "nodes" (by simp)) List.not_mem_nil
    (Spells.seq (SpellsItems.cons (spells_consumer root requires) (spells_packages requires)))
    (SpellsEntries.nil 3)
  have hroot := SpellsEntries.cons (isText_word "root" (by simp)) (by simp)
    ((Spells.plain root).mono (Nat.zero_le 3)) hnodes
  have h := Spells.map (SpellsEntries.cons (isText_word "api" (by simp)) (by simp)
    ((Spells.plain "depenv/v0").mono (Nat.zero_le 3)) hroot)
  rw [Yaml.Node.plainDatum_of_isText (isText_word "depenv/v0" (by simp))] at h
  generalize Yaml.Node.plainDatum root = v, requires.mapM Yaml.Node.plainDatum = vs at h ⊢
  cases v <;> cases vs <;> exact h

/-! ### The graph -/

section Graph

variable {root : String} {requires : List String} {template : Template}

/-- Ids that templates can write without quotes: of one line, and without the marks of the document
at the places where they stand. -/
structure CanStand (root : String) (requires : List String) : Prop where
  line : ∀ id ∈ root :: requires, isLine id.toList
  block : ∀ id ∈ root :: requires, standsInBlock id.toList
  flow : ∀ id ∈ requires, standsInFlow id.toList

/-- What a new graph file is read as. -/
theorem read_text (template : Template) (h : CanStand root requires) :
    Yaml.read (template.text root requires)
      = ((Yaml.Node.plainDatum root).bind fun d =>
          (requires.mapM Yaml.Node.plainDatum).map (fileDatum d)).elim (.error .unreadable) .ok :=
  (spells_file root requires).read (by decide) (scan_text template h.line h.block h.flow)

/-- The contents that a new graph file is meant to declare. -/
def contents (root : String) (requires : List String) : DeclaredGraph where
  root := some root
  settings := ⟨none⟩
  buildSettings := ⟨none⟩
  nodes := { Node.ofName root with
    requirements := requires.map fun id => ⟨id, .requires, true⟩ } :: requires.map .ofName

theorem mapM_text_ok {β : Type} {read : Datum → Decoded β} {f : String → β} {g : Datum → Datum}
    (h : ∀ id, read (g (.text id)) = .ok (f id)) (ids : List String) :
    ((ids.map Datum.text).map g).mapM read = .ok (ids.map f) := by
  rw [mapM_ok_iff, List.map_map]
  induction ids with
  | nil => exact .nil
  | cons id ids ih => exact .cons (h id) ih

theorem decode_packageDatum (id : String) :
    DeclaredNode.decode (packageDatum (.text id)) = .ok (.ofName id) := rfl

theorem decode_consumerDatum (root : String) (requires : List String) :
    DeclaredNode.decode (consumerDatum (.text root) (requires.map .text))
      = .ok { Node.ofName root with
        requirements := requires.map fun id => ⟨id, .requires, true⟩ } := by
  have hrequires : (Datum.seq (requires.map .text)).readList DeclaredRequirement.decode
      = .ok (requires.map fun id => ⟨id, none⟩) := by
    have hread : ∀ id, DeclaredRequirement.decode (.text id) = .ok ⟨id, none⟩ := fun _ => rfl
    have h := mapM_text_ok (g := id) hread requires
    rwa [List.map_id] at h
  have hset : ∀ decl, DeclaredNode.set decl "requires" (.seq (requires.map .text))
      = .ok { decl with requires := requires.map fun id => ⟨id, none⟩ } := by
    intro decl
    have hread : DeclaredNode.set decl "requires" (.seq (requires.map .text))
        = (Datum.seq (requires.map .text)).readList DeclaredRequirement.decode >>= fun read =>
          pure { decl with requires := read } := rfl
    rw [hread, hrequires]
    rfl
  have hrecord : (consumerDatum (.text root) (requires.map .text)).readRecord "NodeDecl"
      DeclaredNode.fieldNames DeclaredNode.set .empty
      = DeclaredNode.set { DeclaredNode.empty with name := some root } "requires"
        (.seq (requires.map .text)) >>= .ok := rfl
  rw [DeclaredNode.decode, hrecord, hset]
  simp [bind, Except.bind, pure, Except.pure, DeclaredNode.toNode, DeclaredNode.requirements,
    DeclaredNode.empty, Node.ofName, DeclaredRequirement.toRequirement]

theorem decode_fileDatum (root : String) (requires : List String) :
    DeclaredGraph.decode (fileDatum (.text root) (requires.map .text))
      = .ok (contents root requires) := by
  have hnodes : (Datum.seq (consumerDatum (.text root) (requires.map .text)
      :: (requires.map .text).map packageDatum)).readList DeclaredNode.decode
      = .ok (contents root requires).nodes := by
    refine mapM_ok_iff.mpr (.cons (decode_consumerDatum root requires) ?_)
    exact mapM_ok_iff.mp (mapM_text_ok decode_packageDatum requires)
  have hset : ∀ decl, DeclaredGraph.set decl "nodes" (.seq (consumerDatum (.text root)
      (requires.map .text) :: (requires.map .text).map packageDatum))
      = .ok { decl with nodes := (contents root requires).nodes } := by
    intro decl
    have hread : DeclaredGraph.set decl "nodes" (.seq (consumerDatum (.text root)
        (requires.map .text) :: (requires.map .text).map packageDatum))
        = (Datum.seq (consumerDatum (.text root) (requires.map .text)
          :: (requires.map .text).map packageDatum)).readList DeclaredNode.decode >>= fun read =>
          pure { decl with nodes := read } := rfl
    rw [hread, hnodes]
    rfl
  have hdecode : DeclaredGraph.decode (fileDatum (.text root) (requires.map .text))
      = DeclaredGraph.set { DeclaredGraph.empty with root := some root } "nodes"
        (.seq (consumerDatum (.text root) (requires.map .text)
          :: (requires.map .text).map packageDatum)) >>= .ok := rfl
  rw [hdecode, hset]
  rfl

theorem ids_contents (root : String) (requires : List String) :
    (contents root requires).ids = root :: requires := by
  have hrequires : (requires.map Node.ofName).map (·.id) = requires := by
    rw [List.map_map]
    exact List.map_id requires
  rw [DeclaredGraph.ids, contents, List.map_cons, hrequires]
  rfl

theorem isSound_contents (h : (root :: requires).Nodup) : (contents root requires).IsSound := by
  have hids := ids_contents root requires
  have hnodes : ∀ n ∈ (contents root requires).nodes,
      n.buildEnv = [] ∧ n.runEnv = [] ∧ ∀ r ∈ n.requirements, r.node ∈ requires := by
    rintro n (_ | ⟨_, hn⟩)
    · exact ⟨rfl, rfl, by simp⟩
    · obtain ⟨id, -, rfl⟩ := List.mem_map.mp hn
      exact ⟨rfl, rfl, nofun⟩
  exact {
    distinct := hids.symm ▸ h
    root := by
      rintro id ⟨⟩
      exact hids.symm ▸ List.mem_cons_self
    requirements := fun n hn r hr => hids.symm ▸ List.mem_cons_of_mem _ ((hnodes n hn).2.2 r hr)
    buildNames := fun n hn op hop => by
      rw [(hnodes n hn).1] at hop
      cases hop
    runNames := fun n hn op hop => by
      rw [(hnodes n hn).2.1] at hop
      cases hop }

/-- A scalar without quotes that is read as a text is that text. -/
theorem isText_of_plainDatum {text read : String} {d : Datum}
    (h : Yaml.Node.plainDatum text = some d) (hread : d.IsText read) : Plain.isText text := by
  unfold Yaml.Node.plainDatum at h
  split at h
  case h_6 hplain => exact beq_iff_eq.mpr hplain
  all_goals
    cases h
    try cases hread

theorem isText_of_declaredBy {name : Datum} {entries : List (Datum × Datum)} {n : Node}
    (h : Node.DeclaredBy (.map ((.text "name", name) :: entries)) n) : name.IsText n.name := by
  obtain ⟨found, hrecord, hgiven⟩ := h
  obtain rfl := Datum.hasEntries_map_iff.mp hrecord.mapping
  have hname := DeclaredNode.gives_name_iff.mpr hgiven.name
  obtain ⟨text, htext, heq⟩ :=
    hname.holds_of_mem hrecord.keys (by decide) List.mem_cons_self rfl
  cases heq
  exact htext

/-- Packages whose names are read have texts as ids. -/
theorem isText_of_packages {ids : List String} {items : List Datum} {nodes : List Node}
    (hitems : ids.mapM Yaml.Node.plainDatum = some items)
    (h : List.Forall₂ Node.DeclaredBy (items.map packageDatum) nodes) :
    ∀ id ∈ ids, Plain.isText id := by
  induction ids generalizing items nodes with
  | nil => nofun
  | cons id ids ih =>
      rw [List.mapM_cons] at hitems
      cases hid : Yaml.Node.plainDatum id with
      | none =>
          rw [hid] at hitems
          cases hitems
      | some d =>
          cases hids : ids.mapM Yaml.Node.plainDatum with
          | none =>
              rw [hid, hids] at hitems
              cases hitems
          | some rest =>
              rw [hid, hids] at hitems
              cases hitems
              cases h with
              | cons hfirst hrest =>
                  exact List.forall_mem_cons.mpr
                    ⟨isText_of_plainDatum hid (isText_of_declaredBy hfirst), ih hids hrest⟩

theorem mapM_plainDatum {ids : List String} (h : ∀ id ∈ ids, Plain.isText id) :
    ids.mapM Yaml.Node.plainDatum = some (ids.map .text) := by
  induction ids with
  | nil => rfl
  | cons id ids ih =>
      obtain ⟨hid, hids⟩ := List.forall_mem_cons.mp h
      rw [List.mapM_cons, Yaml.Node.plainDatum_of_isText hid, ih hids]
      rfl

/-- Where a new graph file makes a graph, all ids are texts. -/
theorem isText_of_ofYaml {g : Graph} (h : CanStand root requires)
    (hg : Graph.ofYaml (template.text root requires) = .ok g) :
    ∀ id ∈ root :: requires, Plain.isText id := by
  obtain ⟨d, decl, hread, hdecode, -⟩ := Graph.exists_decode_of_ofYaml hg
  rw [read_text template h] at hread
  cases hroot : Yaml.Node.plainDatum root with
  | none =>
      rw [hroot] at hread
      cases hread
  | some rootDatum =>
      cases hrequires : requires.mapM Yaml.Node.plainDatum with
      | none =>
          rw [hroot, hrequires] at hread
          cases hread
      | some items =>
          rw [hroot, hrequires] at hread
          cases hread
          obtain ⟨entries, hrecord, hgiven⟩ := (DeclaredGraph.reads_decode _ _).mp hdecode
          have hentries := Datum.hasEntries_map_iff.mp hrecord.mapping
          have hentry : (Datum.text "nodes",
              Datum.seq (consumerDatum rootDatum items :: items.map packageDatum)) ∈ entries := by
            simp [hentries]
          have hnodes := hgiven.nodes.holds_of_mem hrecord.keys (by decide) hentry rfl
          generalize decl.nodes = nodes at hnodes
          cases hnodes with
          | items hseq hpackages =>
              cases hseq
              cases hpackages with
              | cons hconsumer hpackages =>
                  exact List.forall_mem_cons.mpr
                    ⟨isText_of_plainDatum hroot (isText_of_declaredBy hconsumer),
                      isText_of_packages hrequires hpackages⟩
          | null hnull => cases hnull

/-- A new graph file with ids that can stand without quotes makes a graph exactly when none of them
is read as a null, a truth value or a number. The graph then is the one that the file was made for:
its root, one package for each id, and the root requires the others, visibly and in their order. -/
theorem ofYaml_text_iff (template : Template) (h : CanStand root requires)
    (hdistinct : (root :: requires).Nodup) :
    ((∃ g, Graph.ofYaml (template.text root requires) = .ok g)
        ↔ ∀ id ∈ root :: requires, Plain.isText id)
      ∧ ∀ g, Graph.ofYaml (template.text root requires) = .ok g → g.root = some root
        ∧ g.nodes = { Node.ofName root with
          requirements := requires.map fun id => ⟨id, .requires, true⟩ } :: requires.map .ofName
    := by
  have hbuilt : (∀ id ∈ root :: requires, Plain.isText id) →
      Graph.ofYaml (template.text root requires)
        = Graph.ofDeclared (contents root requires) := by
    intro htexts
    obtain ⟨hroot, hrequires⟩ := List.forall_mem_cons.mp htexts
    have hitems := mapM_plainDatum hrequires
    have hread := read_text template h
    rw [Yaml.Node.plainDatum_of_isText hroot, hitems] at hread
    exact Graph.ofYaml_of_decode hread (decode_fileDatum root requires)
  refine ⟨⟨fun ⟨g, hg⟩ => isText_of_ofYaml h hg, fun htexts => ?_⟩, fun g hg => ?_⟩
  · have hsound := isSound_contents hdistinct
    exact ⟨_, (hbuilt htexts).trans
      (Graph.ofDeclared_ok_iff.mpr ⟨hsound, hsound.distinct, rfl⟩)⟩
  · rw [hbuilt (isText_of_ofYaml h hg)] at hg
    obtain ⟨-, hdistinct, rfl⟩ := Graph.ofDeclared_ok_iff.mp hg
    exact ⟨rfl, rfl⟩

/-- Ids with a slash and with a space. -/
theorem ofYaml_text_iff_spaced :
    ∃ g, Graph.ofYaml (text .standard "app" ["zlib/1.2.11", "my lib"]) = .ok g
      ∧ g.root = some "app" ∧ g.ids = ["app", "zlib/1.2.11", "my lib"] := by
  have hstand : CanStand "app" ["zlib/1.2.11", "my lib"] := ⟨by decide, by decide, by decide⟩
  have hdistinct : ["app", "zlib/1.2.11", "my lib"].Nodup := by
    decide
  have htexts : ∀ id ∈ ["app", "zlib/1.2.11", "my lib"], Plain.isText id := by
    decide +kernel
  obtain ⟨haccepted, hgraph⟩ := ofYaml_text_iff .standard hstand hdistinct
  obtain ⟨g, hg⟩ := haccepted.mpr htexts
  obtain ⟨hroot, hnodes⟩ := hgraph g hg
  refine ⟨g, hg, hroot, ?_⟩
  rw [Graph.ids, hnodes]
  rfl

/-- An id of digits is read as a number, and the file is refused. -/
theorem digits_refused :
    (∀ id ∈ ["app", "42"], isLine id.toList) ∧ ["app", "42"].Nodup
      ∧ ¬ ∃ g, Graph.ofYaml (text .minimal "app" ["42"]) = .ok g := by
  have hline : ∀ id ∈ ["app", "42"], isLine id.toList := by
    decide
  have hstand : CanStand "app" ["42"] := ⟨hline, by decide, by decide⟩
  refine ⟨hline, by decide, fun ⟨g, hg⟩ => ?_⟩
  have htext := isText_of_ofYaml hstand hg "42" (by simp)
  revert htext
  decide +kernel

end Graph

end EnvLayers.Template
