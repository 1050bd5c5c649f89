import EnvLayers.Proofs.Graph.Contents
import EnvLayers.Proofs.Graph.Validate
import Mathlib.Data.List.Induction
import Mathlib.Data.List.Nodup

/-
Module: EnvLayers.Proofs.Graph.Acceptance
Purpose: Which contents of a graph file make a graph, and what the failure is otherwise: the first
  id that repeats an earlier one, or else the first check that fails, of the root and then package
  after package.
Main exports: DeclaredGraph.IsSound, DeclaredGraph.FirstFault, Graph.addNodes_ok,
  Graph.validate_graph, Graph.ofDeclared_ok_iff, Graph.ofDeclared_error_iff, Graph.ofYaml_builds
-/

namespace EnvLayers

/-- One check of a graph: a reference is declared, or a variable that a package names can be used in
a script. -/
inductive Check where
  | reference (id : String)
  | variableName (name node : String)
deriving Repr, DecidableEq

namespace Check

/-- The check of a graph with some ids passes. -/
def Passes (ids : List String) : Check → Prop
  | reference id => id ∈ ids
  | variableName name _ => Graph.isVariableName name

instance (ids : List String) : (c : Check) → Decidable (c.Passes ids)
  | reference id => inferInstanceAs (Decidable (id ∈ ids))
  | variableName name _ => inferInstanceAs (Decidable (Graph.isVariableName name = true))

/-- What a check that does not pass fails with. -/
def failure (g : Graph) : Check → Failure
  | reference id => g.unknown id
  | variableName name node => .invalid (.variableName name node)

end Check

/-- The checks of a package: its requirements, and then the variables that it names for building and
for running. -/
def Node.checks (n : Node) : List Check :=
  n.requirements.map (fun r => .reference r.node)
    ++ n.buildEnv.map (fun op => .variableName op.name n.id)
    ++ n.runEnv.map (fun op => .variableName op.name n.id)

namespace DeclaredGraph

/-- The ids of the packages in their order. -/
def ids (decl : DeclaredGraph) : List String := decl.nodes.map (·.id)

/-- The checks of some contents: the root, and then package after package. -/
def checks (decl : DeclaredGraph) : List Check :=
  decl.root.toList.map .reference ++ decl.nodes.flatMap (·.checks)

/-- The graph of contents whose ids are distinct. -/
def graph (decl : DeclaredGraph) (h : decl.ids.Nodup) : Graph where
  root := decl.root
  settings := decl.settings
  buildSettings := decl.buildSettings
  nodes := decl.nodes
  ids_nodup := h

/-- The graph of the same settings before its packages are added. -/
def bare (decl : DeclaredGraph) : Graph where
  root := decl.root
  settings := decl.settings
  buildSettings := decl.buildSettings
  nodes := []
  ids_nodup := List.nodup_nil

/-- Contents that make a graph: the ids are distinct, the root and all requirements are declared,
and the variables that packages name can be used in a script. -/
structure IsSound (decl : DeclaredGraph) : Prop where
  distinct : decl.ids.Nodup
  root : ∀ id, decl.root = some id → id ∈ decl.ids
  requirements : ∀ n ∈ decl.nodes, ∀ r ∈ n.requirements, r.node ∈ decl.ids
  buildNames : ∀ n ∈ decl.nodes, ∀ op ∈ n.buildEnv, Graph.isVariableName op.name
  runNames : ∀ n ∈ decl.nodes, ∀ op ∈ n.runEnv, Graph.isVariableName op.name

theorem isSound_iff {decl : DeclaredGraph} :
    decl.IsSound ↔ decl.ids.Nodup ∧ ∀ c ∈ decl.checks, c.Passes decl.ids := by
  have hchecks : (∀ c ∈ decl.checks, c.Passes decl.ids)
      ↔ (∀ id, decl.root = some id → id ∈ decl.ids) ∧ ∀ n ∈ decl.nodes,
        (∀ r ∈ n.requirements, r.node ∈ decl.ids)
          ∧ (∀ op ∈ n.buildEnv, Graph.isVariableName op.name)
          ∧ ∀ op ∈ n.runEnv, Graph.isVariableName op.name := by
    simp only [checks, Node.checks, List.forall_mem_append, List.forall_mem_map,
      List.forall_mem_flatMap, Option.mem_toList, Check.Passes, and_assoc]
  rw [hchecks]
  constructor
  · intro h
    exact ⟨h.distinct, h.root,
      fun n hn => ⟨h.requirements n hn, h.buildNames n hn, h.runNames n hn⟩⟩
  · rintro ⟨hdistinct, hroot, hnodes⟩
    exact {
      distinct := hdistinct
      root := hroot
      requirements := fun n hn => (hnodes n hn).1
      buildNames := fun n hn => (hnodes n hn).2.1
      runNames := fun n hn => (hnodes n hn).2.2 }

end DeclaredGraph

namespace Graph

variable {g : Graph} {nodes before after : List Node} {n : Node}

/-! ### Adding packages -/

/-- Packages whose ids are new and distinct are added in their order. -/
theorem addNodes_ok (h : ((g.nodes ++ nodes).map (·.id)).Nodup) :
    g.addNodes nodes = .ok { g with nodes := g.nodes ++ nodes, ids_nodup := h } := by
  induction nodes generalizing g with
  | nil =>
      simp [addNodes, pure, Except.pure]
  | cons n nodes ih =>
      have hsplit : g.nodes ++ n :: nodes = (g.nodes ++ [n]) ++ nodes := by
        simp
      have hfirst : ((g.nodes ++ [n]).map (·.id)).Nodup := by
        rw [hsplit, List.map_append] at h
        exact h.of_append_left
      have hnew : n.id ∉ g.nodes.map (·.id) := by
        rw [List.map_append, List.map_singleton, List.nodup_append] at hfirst
        exact fun hmem => hfirst.2.2 _ hmem _ (List.mem_singleton_self _) rfl
      have hadd : g.addNode n = .ok { g with nodes := g.nodes ++ [n], ids_nodup := hfirst } :=
        dif_neg hnew
      have hstep : g.addNodes (n :: nodes) = g.addNode n >>= fun next => next.addNodes nodes := rfl
      rw [hstep, hadd]
      refine (ih (hsplit ▸ h)).trans ?_
      simp

/-- The first package whose id is declared already ends the adding. -/
theorem addNodes_repeated (hbefore : ((g.nodes ++ before).map (·.id)).Nodup)
    (hn : n.id ∈ (g.nodes ++ before).map (·.id)) :
    g.addNodes (before ++ n :: after) = .error (.duplicateNode n.id) := by
  have hsplit : g.addNodes (before ++ n :: after)
      = g.addNodes before >>= fun next => next.addNode n >>= fun last => last.addNodes after := by
    simp only [addNodes, List.foldlM_append, List.foldlM_cons]
  have hadd : ∀ next : Graph, n.id ∈ next.nodes.map (·.id) →
      next.addNode n = .error (.duplicateNode n.id) := fun next h => dif_pos h
  rw [hsplit, addNodes_ok hbefore]
  exact congrArg (· >>= fun last => last.addNodes after)
    (hadd { g with nodes := g.nodes ++ before, ids_nodup := hbefore } hn)

/-! ### The check -/

/-- Runs one check. -/
def runCheck (g : Graph) : Check → Outcome Unit
  | .reference id => g.node id >>= fun _ => pure ()
  | .variableName name node =>
    if isVariableName name then pure () else throw (.invalid (.variableName name node))

theorem runCheck_reference (id : String) :
    g.runCheck (.reference id) = if id ∈ g.ids then .ok () else .error (g.unknown id) := by
  rw [runCheck, node]
  cases hfound : g.node? id with
  | none =>
      rw [if_neg (node?_eq_none_iff.mp hfound)]
      rfl
  | some n =>
      rw [if_pos (mem_ids_iff.mpr ⟨n, hfound⟩)]
      rfl

theorem runCheck_ok_iff {c : Check} : g.runCheck c = .ok () ↔ c.Passes g.ids := by
  cases c with
  | reference id =>
      rw [runCheck_reference, Check.Passes]
      split <;> simp_all
  | variableName name node =>
      rw [runCheck, Check.Passes]
      split <;> simp_all [pure, Except.pure, throw, throwThe, MonadExceptOf.throw]

/-- Two lists that are checked as one are checked one after the other. -/
theorem forM_append_eq {α : Type} (check : α → Outcome Unit) (xs ys : List α) :
    (xs ++ ys).forM check = xs.forM check >>= fun _ => ys.forM check := by
  induction xs with
  | nil =>
      rfl
  | cons x xs ih =>
      have hstep : ∀ zs : List α,
          (x :: zs).forM check = check x >>= fun _ => zs.forM check := fun _ => rfl
      rw [List.cons_append, hstep, hstep, ih, bind_assoc]

theorem forM_flatMap_eq {α β : Type} (check : β → Outcome Unit) (f : α → List β) (xs : List α) :
    (xs.flatMap f).forM check = xs.forM fun x => (f x).forM check := by
  induction xs with
  | nil =>
      rfl
  | cons x xs ih =>
      rw [List.flatMap_cons, forM_append_eq, ih]
      rfl

theorem validateNode_eq (n : Node) : g.validateNode n = n.checks.forM g.runCheck := by
  have hname : ∀ op : Op, g.runCheck (.variableName op.name n.id)
      = if !isVariableName op.name then throw (.invalid (.variableName op.name n.id))
        else pure () := by
    intro op
    rw [runCheck]
    cases isVariableName op.name <;> rfl
  have hnames : ∀ ops : List Op,
      (ops.map fun op => Check.variableName op.name n.id).forM g.runCheck = ops.forM fun op =>
        if !isVariableName op.name then throw (.invalid (.variableName op.name n.id))
        else pure () := forM_map_congr hname
  rw [Node.checks, forM_append_eq, forM_append_eq, hnames, hnames, bind_assoc, ← forM_append_eq,
    forM_map_congr fun r => (rfl : _ = (g.node r.node >>= fun _ => pure ()))]
  rfl

/-- Checking a graph runs its checks in order. -/
theorem validate_graph (decl : DeclaredGraph) (h : decl.ids.Nodup) :
    (decl.graph h).validate = decl.checks.forM (decl.graph h).runCheck := by
  have hnodes : decl.nodes.forM (decl.graph h).validateNode
      = (decl.nodes.flatMap (·.checks)).forM (decl.graph h).runCheck := by
    rw [forM_flatMap_eq]
    exact congrArg decl.nodes.forM (funext validateNode_eq)
  rw [DeclaredGraph.checks, forM_append_eq, ← hnodes]
  cases hroot : decl.root with
  | none =>
      simp [validate, DeclaredGraph.graph, hroot]
  | some root =>
      simp [validate, DeclaredGraph.graph, hroot, runCheck]

/-! ### The whole graph -/

/-- Contents with distinct ids make their graph if it passes the check. -/
theorem ofDeclared_of_distinct {decl : DeclaredGraph} (h : decl.ids.Nodup) :
    ofDeclared decl = (decl.graph h).validate >>= fun _ => pure (decl.graph h) := by
  have hadded : decl.bare.addNodes decl.nodes = .ok (decl.graph h) :=
    addNodes_ok (g := decl.bare) h
  have hbuilt : ofDeclared decl = decl.bare.addNodes decl.nodes >>= fun g =>
      g.validate >>= fun _ => pure g := rfl
  rw [hbuilt, hadded]
  rfl

theorem ofDeclared_of_repeated {decl : DeclaredGraph} (h : decl.nodes = before ++ n :: after)
    (hbefore : (before.map (·.id)).Nodup) (hn : n.id ∈ before.map (·.id)) :
    ofDeclared decl = .error (.duplicateNode n.id) := by
  have hadded : decl.bare.addNodes decl.nodes = .error (.duplicateNode n.id) := by
    rw [h]
    exact addNodes_repeated hbefore hn
  have hbuilt : ofDeclared decl = decl.bare.addNodes decl.nodes >>= fun g =>
      g.validate >>= fun _ => pure g := rfl
  rw [hbuilt, hadded]
  rfl

/-- Among ids that are not distinct there is a first one that repeats an earlier one. -/
theorem exists_first_repeated (h : ¬ (nodes.map (·.id)).Nodup) :
    ∃ before n after, nodes = before ++ n :: after ∧ (before.map (·.id)).Nodup
      ∧ n.id ∈ before.map (·.id) := by
  induction nodes using List.reverseRecOn with
  | nil =>
      exact absurd List.nodup_nil h
  | append_singleton nodes last ih =>
      by_cases hfirst : (nodes.map (·.id)).Nodup
      · refine ⟨nodes, last, [], rfl, hfirst, ?_⟩
        by_contra hnew
        refine h ?_
        rw [List.map_append, List.map_singleton]
        exact hfirst.append (List.nodup_singleton _) (by simpa using hnew)
      · obtain ⟨before, n, after, rfl, hbefore, hn⟩ := ih hfirst
        exact ⟨before, n, after ++ [last], by simp, hbefore, hn⟩

/-- Contents make a graph exactly when they are sound, and then their own. -/
theorem ofDeclared_ok_iff {decl : DeclaredGraph} :
    ofDeclared decl = .ok g ↔ decl.IsSound ∧ ∃ h, g = decl.graph h := by
  rw [DeclaredGraph.isSound_iff]
  by_cases h : decl.ids.Nodup
  · have hvalid : (decl.graph h).validate = .ok () ↔ ∀ c ∈ decl.checks, c.Passes decl.ids := by
      rw [validate_graph, forM_ok_iff]
      exact forall₂_congr fun _ _ => runCheck_ok_iff
    rw [ofDeclared_of_distinct h, bind_ok_iff, ← hvalid]
    constructor
    · rintro ⟨⟨⟩, hcheck, hg⟩
      cases hg
      exact ⟨⟨h, hcheck⟩, h, rfl⟩
    · rintro ⟨⟨-, hcheck⟩, -, rfl⟩
      exact ⟨(), hcheck, rfl⟩
  · obtain ⟨before, n, after, hsplit, hbefore, hn⟩ := exists_first_repeated h
    rw [ofDeclared_of_repeated hsplit hbefore hn]
    simp [h]

/-- A text that is read, and whose structure fits, makes the graph of its contents. -/
theorem ofYaml_of_decode {text : String} {d : Datum} {decl : DeclaredGraph}
    (hread : Yaml.read text = .ok d) (hfits : DeclaredGraph.decode d = .ok decl) :
    ofYaml text = ofDeclared decl := by
  rw [ofYaml, readDeclared, hread]
  simp only [bind, Except.bind, hfits, pure, Except.pure]

/-- A text that makes a graph is read, its structure fits, and it makes the graph of its contents.
-/
theorem exists_decode_of_ofYaml {text : String} (h : ofYaml text = .ok g) :
    ∃ d decl, Yaml.read text = .ok d ∧ DeclaredGraph.decode d = .ok decl
      ∧ ofDeclared decl = .ok g := by
  unfold ofYaml at h
  split at h
  · next decl hdecl =>
    obtain ⟨d, hread, hfits⟩ := bind_ok_iff.mp hdecl
    split at hfits
    · next hdecode =>
      cases hfits
      exact ⟨d, decl, hread, hdecode, h⟩
    · cases hfits
  · cases h

end Graph

end EnvLayers
