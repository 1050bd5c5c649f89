import EnvLayers.Graph.Template
import EnvLayers.Proofs.Text.Join
import EnvLayers.Proofs.Yaml.Lines

/-
Module: EnvLayers.Proofs.Graph.TemplateTokens
Purpose: The tokens of a new graph file. Both templates are one text with remarks at their places,
  and ids that can stand without quotes are scalars of their own in it.
Main exports: Template.text_eq, Template.toList_text, Template.fileTokens, Template.scan_text
-/

namespace EnvLayers.Template

open Yaml

/-! ### The text -/

/-- The lines of a graph file that say nothing. -/
structure Remarks where
  front : List String
  version : List String
  root : List String
  consumer : List String
  last : List String

/-- The lines of a template that say nothing. -/
def remarks : Template → Remarks
  | .minimal => ⟨[], [], [""], [], []⟩
  | .standard =>
    { front := ["# depenv dependency graph", ""]
      version := ["", "# Node resolved when no consumer is given on the command line"]
      root := ["", "# Operating system of the host and build contexts", "# settings:",
        "#   os: Linux", "# settings_build:", "#   os: Linux", ""]
      consumer := ["    # build_requires: [cmake]", "    # test_requires: [gtest]"]
      last := ["", "# A node gives a buildenv to packages that build with it and",
        "# needs its runenv at runtime:", "#   - name: cmake/3.20", "#     id: cmake",
        "#     package_folder: /opt/cmake", "#     buildenv:", "#       - define: CMAKE_GENERATOR",
        "#         value: Ninja", "#     runenv:", "#       - prepend: PATH",
        "#         value: /opt/cmake/share/tools", "#         path: true"] }

/-- The lines of a graph file with remarks. -/
def fileLines (r : Remarks) (root : String) (requires : List String) : List String :=
  r.front ++ ["api: depenv/v0"] ++ r.version ++ ["root: " ++ root] ++ r.root ++ ["nodes:"]
    ++ consumerLines root requires ++ r.consumer ++ requiredLines requires ++ r.last

theorem text_eq (template : Template) (root : String) (requires : List String) :
    template.text root requires
      = Text.Lines.render "\n" (fileLines template.remarks root requires) := by
  cases template <;> simp [text, fileLines, remarks, minimalLines, standardLines]

theorem toList_render (lines : List String) :
    (Text.Lines.render "\n" lines).toList = Scanner.linesText (lines.map String.toList) := by
  induction lines with
  | nil => rfl
  | cons line lines ih => simp_all [Text.Lines.render]

/-! ### The tokens -/

/-- Characters of lines that say nothing, and of what follows at a column. -/
def behind (lines : List String) (column : Nat) (next : List Char) : List Char :=
  Scanner.behind (lines.map String.toList) column next

/-- The lines that say nothing behind a package. -/
def linesAfter (last : List String) : List String → List String
  | [] => last
  | _ :: _ => []

/-- The column of what follows a package. -/
def columnAfter : List String → Nat
  | [] => 0
  | _ :: _ => 2

/-- The text from the dash of the next package on. -/
def packagesText (last : List String) : List String → List Char
  | [] => []
  | id :: ids => '-' :: ' ' :: ("name".toList ++ ':' :: ' ' :: (id.toList ++ '\n' ::
      behind (linesAfter last ids) (columnAfter ids) (packagesText last ids)))

theorem toList_nameLine (id : String) : ("  - name: " ++ id).toList
    = ' ' :: ' ' :: '-' :: ' ' :: ("name".toList ++ ':' :: ' ' :: id.toList) := by
  rw [String.toList_append]
  rfl

theorem toList_requirementsLine (requires : List String) : (requirementsLine requires).toList
    = ' ' :: ' ' :: ' ' :: ' ' :: ("requires".toList ++ ':' :: ' ' :: '['
      :: ([',', ' '].intercalate (requires.map String.toList) ++ [']'])) := by
  have hjoined : (", ".intercalate requires).toList
      = [',', ' '].intercalate (requires.map String.toList) := String.toList_intercalate
  rw [← hjoined]
  exact (String.toList_append).trans (congrArg (· ++ [']']) String.toList_append)

theorem linesText_required (last : List String) (requires : List String) :
    Scanner.linesText ((requiredLines requires).map String.toList)
        ++ Scanner.linesText (last.map String.toList)
      = behind (linesAfter last requires) (columnAfter requires) (packagesText last requires) := by
  induction requires with
  | nil => simp [requiredLines, behind, linesAfter, columnAfter, packagesText, Scanner.behind]
  | cons id ids ih =>
      have hcons : requiredLines (id :: ids) = ("  - name: " ++ id) :: requiredLines ids := rfl
      rw [hcons, List.map_cons, Scanner.linesText_cons, List.append_assoc, List.cons_append, ih,
        toList_nameLine]
      simp [behind, Scanner.behind, linesAfter, columnAfter, packagesText, List.replicate]

/-- The text from the requirements of the consumer on. -/
def consumerText (r : Remarks) (requires : List String) : List Char :=
  "requires".toList ++ ':' :: ' ' :: '[' :: ([',', ' '].intercalate (requires.map String.toList)
    ++ ']' :: '\n' :: behind (r.consumer ++ linesAfter r.last requires) (columnAfter requires)
      (packagesText r.last requires))

/-- A graph file with a consumer and its requirements. -/
def fileText (r : Remarks) (root : String) (requires : List String) : List Char :=
  behind r.front 0 ("api".toList ++ ':' :: ' ' :: ("depenv/v0".toList ++ '\n' ::
    behind r.version 0 ("root".toList ++ ':' :: ' ' :: (root.toList ++ '\n' ::
      behind r.root 0 ("nodes".toList ++ ':' :: '\n' ::
        behind [] 2 ('-' :: ' ' :: ("name".toList ++ ':' :: ' ' :: (root.toList ++ '\n' ::
          behind [] 4 (consumerText r requires)))))))))

theorem toList_text (template : Template) (root : String) (requires : List String) :
    (template.text root requires).toList = fileText template.remarks root requires := by
  rw [text_eq, toList_render]
  generalize template.remarks = r
  have hapi : "api: depenv/v0".toList = "api".toList ++ ':' :: ' ' :: "depenv/v0".toList := rfl
  have hnodes : "nodes:".toList = "nodes".toList ++ [':'] := rfl
  have hroot : ("root: " ++ root).toList = "root".toList ++ ':' :: ' ' :: root.toList := by
    rw [String.toList_append]
    rfl
  have hlines : (fileLines r root requires).map String.toList
      = r.front.map String.toList ++ ("api".toList ++ ':' :: ' ' :: "depenv/v0".toList)
        :: (r.version.map String.toList ++ ("root".toList ++ ':' :: ' ' :: root.toList)
        :: (r.root.map String.toList ++ ("nodes".toList ++ [':'])
        :: (' ' :: ' ' :: '-' :: ' ' :: ("name".toList ++ ':' :: ' ' :: root.toList))
        :: (' ' :: ' ' :: ' ' :: ' ' :: ("requires".toList ++ ':' :: ' ' :: '['
          :: ([',', ' '].intercalate (requires.map String.toList) ++ [']'])))
        :: (r.consumer.map String.toList
          ++ ((requiredLines requires).map String.toList ++ r.last.map String.toList)))) := by
    rw [← hapi, ← hroot, ← hnodes, ← toList_nameLine, ← toList_requirementsLine]
    simp only [fileLines, consumerLines, List.map_append, List.map_cons, List.append_assoc,
      List.cons_append, List.nil_append]
  refine (congrArg Scanner.linesText hlines).trans ?_
  unfold fileText consumerText
  -- The words are opaque from here on, so that nothing computes them.
  generalize "api".toList = api, "depenv/v0".toList = version, "root".toList = rootKey,
    "nodes".toList = nodes, "name".toList = name, "requires".toList = requiresKey
  have hrequired := linesText_required r.last requires
  simp only [behind, Scanner.behind, List.map_append] at hrequired ⊢
  simp only [Scanner.linesText_append, Scanner.linesText_cons, hrequired, List.replicate,
    List.map_nil, Scanner.linesText_nil, List.append_assoc, List.cons_append, List.nil_append]

/-- The lines that say nothing do so where they stand: behind a value, comments are not indented. -/
structure Remarks.Fits (r : Remarks) : Prop where
  front : ∀ line ∈ r.front, Scanner.isFiller line.toList
  version : ∀ line ∈ r.version, Scanner.isComment line.toList
  root : ∀ line ∈ r.root, Scanner.isComment line.toList
  consumer : ∀ line ∈ r.consumer, Scanner.isFiller line.toList
  last : ∀ line ∈ r.last, Scanner.isComment line.toList
  allowed : ∀ line ∈ r.front ++ r.version ++ r.root ++ r.consumer ++ r.last,
    line.toList.all isAllowed

theorem remarks_fits (template : Template) : template.remarks.Fits := by
  cases template <;> constructor <;> decide +kernel

/-- The tokens of an entry of a mapping, and those behind it. -/
def entryTokens (key : String) (value more : List Token) : List Token :=
  .key :: .scalar true key :: .value :: (value ++ more)

/-- The tokens of a package that has nothing but a name. -/
def packageTokens (id : String) : List Token :=
  .blockMappingStart :: entryTokens "name" [.scalar true id] [.blockEnd]

/-- The tokens of the packages behind the consumer. -/
def packagesTokens : List String → List Token
  | [] => [.blockEnd]
  | id :: ids => .blockEntry :: (packageTokens id ++ packagesTokens ids)

/-- The tokens of the consumer. -/
def consumerTokens (root : String) (requires : List String) : List Token :=
  .blockMappingStart :: entryTokens "name" [.scalar true root]
    (entryTokens "requires"
      (.flowSequenceStart :: Scanner.itemTokens (requires.map String.toList)) [.blockEnd])

/-- The tokens of a graph file but the last one. -/
def fileTokens (root : String) (requires : List String) : List Token :=
  .blockMappingStart :: entryTokens "api" [.scalar true "depenv/v0"]
    (entryTokens "root" [.scalar true root]
      (entryTokens "nodes" (.blockSequenceStart :: .blockEntry :: (consumerTokens root requires
        ++ packagesTokens requires)) [.blockEnd]))

section Scan

variable {s : Scanner} {last ids requires : List String} {r : Remarks} {root : String}

theorem startsToken_packagesText (last ids : List String) :
    Scanner.startsToken (packagesText last ids) := by
  cases ids <;> rfl

theorem columnAfter_le (ids : List String) : columnAfter ids ≤ 4 := by
  cases ids <;> simp [columnAfter]

theorem isComment_linesAfter (hlast : ∀ line ∈ last, Scanner.isComment line.toList)
    (ids : List String) :
    ∀ line ∈ (linesAfter last ids).map String.toList, Scanner.isComment line := by
  cases ids with
  | nil => simpa [linesAfter] using hlast
  | cons _ _ => simp [linesAfter]

/-- The packages behind an open one are read up to the end of the text. -/
theorem ends_packages (hids : ∀ id ∈ ids, Bare false id.toList)
    (hlast : ∀ line ∈ last, Scanner.isComment line.toList)
    (h : s.StandsAt (packagesText last ids) (columnAfter ids) 4 [2, 0, -1]) :
    s.Ends (.blockEnd :: (packagesTokens ids ++ [.blockEnd, .streamEnd])) := by
  induction ids generalizing s with
  | nil => exact h.finish rfl rfl
  | cons id ids ih =>
      obtain ⟨s₁, h₁, hdash⟩ := h.item (Nat.succ_ne_zero 1) rfl rfl
      obtain ⟨s₂, h₂, hname⟩ := h₁.entry rfl (by decide) (hids id List.mem_cons_self)
        (isComment_linesAfter hlast ids) (startsToken_packagesText last ids) (columnAfter_le ids)
        rfl
      have hrest := ih (fun other hother => hids other (List.mem_cons_of_mem _ hother)) h₂
      have hall := (hdash.trans hname).ends hrest
      simpa [packagesTokens, packageTokens, entryTokens] using hall

/-- A graph file is read up to its end. -/
theorem ends_file (hr : r.Fits) (hroot : Bare false root.toList)
    (hrequires : ∀ id ∈ requires, Bare false id.toList ∧ Bare true id.toList) :
    (Scanner.start (fileText r root requires)).Ends
      (fileTokens root requires ++ [.streamEnd]) := by
  have hfront : ∀ line ∈ r.front.map String.toList, Scanner.isFiller line := by
    simpa using hr.front
  have hversion : ∀ line ∈ r.version.map String.toList, Scanner.isComment line := by
    simpa using hr.version
  have hafter : ∀ line ∈ r.root.map String.toList, Scanner.isComment line := by
    simpa using hr.root
  have hconsumer : ∀ line ∈ (r.consumer ++ linesAfter r.last requires).map String.toList,
      Scanner.isFiller line := by
    rw [List.map_append, List.forall_mem_append]
    exact ⟨by simpa using hr.consumer, fun line hline =>
      Scanner.isFiller_of_isComment (isComment_linesAfter hr.last requires line hline)⟩
  have hitems : ∀ item ∈ requires.map String.toList, Bare true item := by
    simpa using fun id hid => (hrequires id hid).2
  have hvalue : Bare false "depenv/v0".toList := bare_of_isLine rfl rfl nofun
  have h₀ : (Scanner.start (fileText r root requires)).StandsAt _ 0 (-1) [] :=
    Scanner.standsAt_start hfront rfl
  obtain ⟨s₁, h₁, hapi⟩ := h₀.entry rfl (by decide) hvalue hversion rfl (Nat.le_refl 0) rfl
  obtain ⟨s₂, h₂, hrootEntry⟩ := h₁.entry rfl (by decide) hroot hafter rfl (Nat.le_refl 0) rfl
  obtain ⟨s₃, h₃, hnodes⟩ := h₂.field rfl (by decide) (by simp) rfl rfl
  obtain ⟨s₄, h₄, hdash⟩ := h₃.item (Nat.succ_ne_zero 1) rfl rfl
  obtain ⟨s₅, h₅, hname⟩ := h₄.entry rfl (by decide) hroot (by simp) rfl (Nat.le_refl 4) rfl
  obtain ⟨s₆, h₆, hlist⟩ :=
    h₅.list rfl (by decide) hitems hconsumer (startsToken_packagesText _ _) rfl
  have hrest := ends_packages (fun id hid => (hrequires id hid).1) hr.last h₆
  have hconsumerLines := (hdash.trans hname).trans hlist
  have hall := (((hapi.trans hrootEntry).trans hnodes).trans hconsumerLines).ends hrest
  simpa [fileTokens, consumerTokens, entryTokens] using hall

theorem all_isAllowed_linesText {lines : List String}
    (h : ∀ line ∈ lines, line.toList.all isAllowed) :
    (Scanner.linesText (lines.map String.toList)).all isAllowed := by
  induction lines with
  | nil => rfl
  | cons line lines ih =>
      obtain ⟨hline, hlines⟩ := List.forall_mem_cons.mp h
      have hfeed : isAllowed '\n' = true := by decide
      rw [List.map_cons, Scanner.linesText_cons, List.all_append, List.all_cons, hline, hfeed,
        ih hlines]
      rfl

theorem all_isAllowed_of_isLine {cs : List Char} (h : isLine cs) : cs.all isAllowed := by
  rw [List.all_eq_true]
  intro c hc
  simp only [isLine, Bool.and_eq_true, List.all_eq_true] at h
  have hprintable := (h.1.2 c hc).1
  rw [isPrintable, Bool.and_eq_true] at hprintable
  exact hprintable.1

theorem all_isAllowed_append {front id : String} (hfront : front.toList.all isAllowed)
    (hid : id.toList.all isAllowed) : (front ++ id).toList.all isAllowed := by
  rw [String.toList_append, List.all_append, hfront, hid]
  rfl

theorem all_isAllowed_requirementsLine (h : ∀ id ∈ requires, id.toList.all isAllowed) :
    (requirementsLine requires).toList.all isAllowed := by
  have hids : (", ".intercalate requires).toList.all isAllowed := by
    have hparts : ∀ part ∈ requires.map String.toList, ∀ c ∈ part, isAllowed c := by
      simpa using h
    have hjoiner : ", ".toList.all isAllowed := by decide
    rw [String.toList_intercalate, List.all_eq_true]
    exact forall_mem_intercalate (List.all_eq_true.mp hjoiner) hparts
  exact all_isAllowed_append (all_isAllowed_append (by decide) hids) (by decide)

theorem all_isAllowed_text (template : Template) (hroot : root.toList.all isAllowed)
    (hrequires : ∀ id ∈ requires, id.toList.all isAllowed) :
    (template.text root requires).toList.all isAllowed := by
  have hremarks := (remarks_fits template).allowed
  rw [text_eq, toList_render]
  refine all_isAllowed_linesText ?_
  have hname : ("  - name: " ++ root).toList.all isAllowed :=
    all_isAllowed_append (by decide) hroot
  have hrequired : ∀ line ∈ requiredLines requires, line.toList.all isAllowed := by
    intro line hline
    obtain ⟨id, hid, rfl⟩ := List.mem_map.mp hline
    exact all_isAllowed_append (by decide) (hrequires id hid)
  simp only [List.forall_mem_append, and_assoc] at hremarks
  obtain ⟨hfront, hversion, hbehind, hconsumer, hlast⟩ := hremarks
  simp only [fileLines, consumerLines, List.forall_mem_append, List.forall_mem_cons,
    List.not_mem_nil, false_imp_iff, implies_true, and_true, and_assoc]
  exact ⟨hfront, by decide, hversion, all_isAllowed_append (by decide) hroot, hbehind, by decide,
    hname, all_isAllowed_requirementsLine hrequires, hconsumer, hrequired, hlast⟩

/-- The tokens of a new graph file. -/
theorem scan_text (template : Template) (hids : ∀ id ∈ root :: requires, isLine id.toList)
    (hblock : ∀ id ∈ root :: requires, standsInBlock id.toList)
    (hflow : ∀ id ∈ requires, standsInFlow id.toList) :
    Token.scan (template.text root requires).toList
      = fileTokens root requires ++ [.streamEnd] := by
  obtain ⟨hroot, hrequires⟩ := List.forall_mem_cons.mp hids
  obtain ⟨hrootBlock, hrequiresBlock⟩ := List.forall_mem_cons.mp hblock
  have hallowed : (template.text root requires).toList.all isAllowed :=
    all_isAllowed_text template (all_isAllowed_of_isLine hroot)
      fun id hid => all_isAllowed_of_isLine (hrequires id hid)
  have hends := ends_file (r := template.remarks) (remarks_fits template)
    (bare_of_isLine hroot hrootBlock nofun) fun id hid =>
      ⟨bare_of_isLine (hrequires id hid) (hrequiresBlock id hid) nofun,
        bare_of_isLine (hrequires id hid) (hrequiresBlock id hid) fun _ => hflow id hid⟩
  rw [Token.scan, hallowed, toList_text]
  exact hends _ (Nat.lt_add_of_pos_right (Nat.succ_pos 1))

end Scan

end EnvLayers.Template
