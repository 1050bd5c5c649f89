import EnvLayers.Proofs.Environment.SearchPaths

/-
Module: EnvLayers.Proofs.Environment.Layout
Purpose: What the layout of one package does to variables that may hold anything already. The
  directories that it lists under a name come to stand in front of what the variable of that name
  held, in the order in which they are declared, and every other variable stays as it is.
Main exports: Os.isWindows_iff, Layout.Lists, Node.find_applyAll_implicitRunEnv, LaidOver,
  Node.laidOver_implicitRunEnv
-/

namespace EnvLayers

/-! ### What a layout lists -/

/-- Windows and its variants are told by how their names begin. -/
theorem Os.isWindows_iff {system : Os} :
    system.isWindows = true ↔ ∃ tail, system.name = "Windows" ++ tail := by
  have hprefix : ∀ name : String, "Windows".toList.isPrefixOf name.toList = true
      ↔ ∃ tail, name = "Windows" ++ tail := by
    intro name
    rw [List.isPrefixOf_iff_prefix]
    constructor
    · rintro ⟨tail, htail⟩
      exact ⟨String.ofList tail, String.toList_inj.mp (by simp [← htail])⟩
    · rintro ⟨tail, rfl⟩
      exact ⟨tail.toList, by simp⟩
  cases system with
  | other name =>
      exact hprefix name
  | _ =>
      rw [← hprefix]
      decide

theorem Os.isWindows_eq_false_iff {system : Os} :
    system.isWindows = false ↔ ∀ tail, system.name ≠ "Windows" ++ tail := by
  rw [← Bool.not_eq_true, isWindows_iff, not_exists]

/-- A layout lists directories under the name of a search path: those of programs on every operating
system, and those through which a loader searches where the operating system is known and is no
variant of Windows. -/
inductive Layout.Lists (layout : Layout) (os : Option Os) : String → List String → Prop where
  | programs : Lists layout os "PATH" layout.binDirs
  | loader {system : Os} {name : String} {dirsOf : Layout → List String} : os = some system →
      (∀ tail, system.name ≠ "Windows" ++ tail) → LoaderPath name dirsOf →
      Lists layout os name (dirsOf layout)

namespace Layout

variable {layout : Layout} {os : Option Os} {name : String} {dirs : List String}

theorem Lists.dirsOn_eq (h : layout.Lists os name dirs) : layout.dirsOn os name = dirs := by
  cases h with
  | programs =>
      rw [dirsOn_path]
  | loader hos hname hloader =>
      rw [dirsOn_loaderPath hloader ⟨_, hos, Os.isWindows_eq_false_iff.mpr hname⟩]

theorem lists_of_mem_searchedDirs (h : (name, dirs) ∈ Node.searchedDirs layout os) :
    layout.Lists os name dirs := by
  rcases List.mem_cons.mp h with hpath | hloader
  · cases hpath
    exact .programs
  · cases os with
    | none =>
        simp at hloader
    | some system =>
        cases hsystem : system.isWindows with
        | true =>
            simp [hsystem] at hloader
        | false =>
            have hname := Os.isWindows_eq_false_iff.mp hsystem
            simp only [Option.any_some, hsystem, Bool.not_false, if_true, Node.loaderDirs,
              List.mem_cons, Prod.mk.injEq, List.not_mem_nil, or_false] at hloader
            rcases hloader with ⟨rfl, rfl⟩ | ⟨rfl, rfl⟩ | ⟨rfl, rfl⟩
            · exact .loader rfl hname .libraries
            · exact .loader rfl hname .dynamicLibraries
            · exact .loader rfl hname .frameworks

/-- A layout has no directories under a name but those that it lists there. -/
theorem lists_dirsOn (h : layout.dirsOn os name ≠ []) :
    layout.Lists os name (layout.dirsOn os name) := by
  unfold dirsOn at h ⊢
  cases hlookup : (Node.searchedDirs layout os).lookup name with
  | none =>
      rw [hlookup] at h
      exact absurd rfl h
  | some dirs =>
      obtain ⟨before, after, hsplit, -⟩ := List.lookup_eq_some_iff.mp hlookup
      refine lists_of_mem_searchedDirs ?_
      rw [hsplit]
      exact List.mem_append_right before List.mem_cons_self

end Layout

/-! ### A layout over other variables -/

/-- What the layout of a package makes of variables. The directories that it lists under a name,
seen from the folder of the package, stand in front of what the variable held, or of the outer value
where there was no variable; it is a path list from then on. A name under which it lists nothing
keeps its variable, or has none, and no variable loses its place among the others. -/
structure LaidOver (n : Node) (os : Option Os) (vars after : Variables) : Prop where
  heads : ∀ folder name dirs, n.folder = some folder → n.layout.Lists os name dirs → dirs ≠ [] →
    ∃ entries, List.Forall₂ (Path.JoinedTo folder) dirs entries
      ∧ after.find name = some ⟨name,
        entries.map .value ++ (vars.find name).elim [.previous] (·.items), .path⟩
  keeps : ∀ name, (∀ folder dirs, n.folder = some folder → n.layout.Lists os name dirs →
    dirs = []) → after.find name = vars.find name
  names : vars.names <+: after.names
  unchanged : n.folder = none → after = vars

theorem Variables.name_of_find {vars : Variables} {name : String} {v : Variable}
    (h : vars.find name = some v) : v.name = name := by
  simpa using List.find?_some h

namespace Node

/-- The variable of a name depends only on the directories that the package has under it. -/
theorem find_applyAll_implicitRunEnv (n : Node) (os : Option Os) (vars : Variables)
    (name : String) :
    (vars.applyAll (n.implicitRunEnv os)).find name
      = if n.searched (Layout.dirsOn os name) = [] then vars.find name
        else some ⟨name, (n.searched (Layout.dirsOn os name)).map .value
          ++ (vars.find name).elim [.previous] (·.items), .path⟩ := by
  rw [Variables.find_applyAll, opsOn_implicitRunEnv]
  by_cases hnone : n.searched (Layout.dirsOn os name) = []
  · rw [if_pos hnone, hnone]
    rfl
  · have hops : (n.searched (Layout.dirsOn os name)).reverse.map (prependDir name) ≠ [] := by
      simpa using hnone
    rw [if_neg hops, if_neg hnone, Variable.applyAll_prependDirs, if_neg hnone]
    cases hfind : vars.find name with
    | none =>
        rfl
    | some v =>
        rw [Option.getD_some, Option.elim_some, Variables.name_of_find hfind]

/-- The layout of a package puts its directories at the head of the search paths in their declared
order, whatever these held before, and leaves every other variable alone. -/
theorem laidOver_implicitRunEnv (n : Node) (os : Option Os) (vars : Variables) :
    LaidOver n os vars (vars.applyAll (n.implicitRunEnv os)) where
  heads := by
    intro folder name dirs hfolder hlists hdirs
    have hsearched : n.searched (Layout.dirsOn os name) = dirs.map (Path.join folder) := by
      simp only [searched, hfolder, hlists.dirsOn_eq]
    refine ⟨dirs.map (Path.join folder), ?_, ?_⟩
    · rw [List.forall₂_map_right_iff, List.forall₂_same]
      exact fun dir _ => Path.joinedTo_join folder dir
    · rw [find_applyAll_implicitRunEnv, hsearched, if_neg (by simpa using hdirs)]
  keeps := by
    intro name hnone
    rw [find_applyAll_implicitRunEnv, if_pos]
    refine Classical.byContradiction fun hsome => ?_
    obtain ⟨hfolder, hdirs⟩ := searched_ne_nil_iff.mp hsome
    obtain ⟨folder, hfolder⟩ := Option.ne_none_iff_exists'.mp hfolder
    exact hdirs (hnone folder _ hfolder (Layout.lists_dirsOn hdirs))
  names := by
    rw [Variables.names_applyAll]
    exact List.prefix_append _ _
  unchanged := by
    intro hfolder
    have hops : n.implicitRunEnv os = [] := by
      simp only [implicitRunEnv, hfolder]
    rw [hops]
    rfl

/-- A path that was unset holds the directories alone, and one that was defined keeps its value. -/
example :
    let before := Variables.applyAll [] [.unset "PATH", .define "LD_LIBRARY_PATH" "/lib"]
    let tool : Node := { Node.ofName "tool" with
      folder := some "/tool"
      layout := ⟨["bin", "", "/sbin"], ["lib"], []⟩ }
    before.applyAll (tool.implicitRunEnv (some .linux))
      = [⟨"PATH", [.value "/tool/bin", .value "/tool/", .value "/sbin"], .path⟩,
        ⟨"LD_LIBRARY_PATH", [.value "/tool/lib", .value "/lib"], .path⟩,
        ⟨"DYLD_LIBRARY_PATH", [.value "/tool/lib", .previous], .path⟩] := by
  decide +kernel

end Node

end EnvLayers
