import EnvLayers.Proofs.Graph.Reach
import EnvLayers.Proofs.Outcome

/-
Module: EnvLayers.Proofs.Graph.Validate
Purpose: What the check of a graph establishes: it succeeds for exactly the graphs in which every
  reference has a declaration and every declared operation names a variable that a script can hold.
Main exports: Graph.Valid, Graph.validate_ok_iff
-/

namespace EnvLayers.Graph

/-- A graph without loose ends: its root and all requirements are declared, and the variables that
its packages name can be used in a script. -/
structure Valid (g : Graph) : Prop where
  root : ∀ id, g.root = some id → id ∈ g.ids
  requirements : ∀ n ∈ g.nodes, ∀ r ∈ n.requirements, r.node ∈ g.ids
  names : ∀ n ∈ g.nodes, ∀ op ∈ n.buildEnv ++ n.runEnv, isVariableName op.name

variable {g : Graph}

/-- A reference passes when it is declared. -/
theorem lookup_ok_iff {id : String} {rest : Outcome Unit} :
    (g.node id >>= fun _ => rest) = .ok () ↔ id ∈ g.ids ∧ rest = .ok () := by
  rw [mem_ids_iff, node]
  cases g.node? id with
  | none =>
      simp [bind, Except.bind]
  | some n =>
      simp [bind, Except.bind]

theorem validateNode_ok_iff {n : Node} :
    g.validateNode n = .ok () ↔ (∀ r ∈ n.requirements, r.node ∈ g.ids)
      ∧ ∀ op ∈ n.buildEnv ++ n.runEnv, isVariableName op.name := by
  have hdeclared : ∀ r : Requirement, (g.node r.node >>= fun _ => pure ()) = .ok ()
      ↔ r.node ∈ g.ids := fun r => lookup_ok_iff.trans (and_iff_left rfl)
  have hname : ∀ op : Op, (if !isVariableName op.name then
      throw (.invalid (.variableName op.name n.id)) else pure () : Outcome Unit) = .ok ()
        ↔ isVariableName op.name := by
    intro op
    cases isVariableName op.name <;> simp [throw, throwThe, MonadExceptOf.throw, pure, Except.pure]
  rw [validateNode, check_ok_iff, forM_ok_iff, forM_ok_iff]
  simp only [hdeclared, hname]

/-- The check of a graph succeeds exactly for a graph without loose ends. -/
theorem validate_ok_iff : g.validate = .ok () ↔ g.Valid := by
  have hnodes : g.nodes.forM g.validateNode = .ok ()
      ↔ (∀ n ∈ g.nodes, ∀ r ∈ n.requirements, r.node ∈ g.ids)
        ∧ ∀ n ∈ g.nodes, ∀ op ∈ n.buildEnv ++ n.runEnv, isVariableName op.name := by
    simp only [forM_ok_iff, validateNode_ok_iff, imp_and, forall_and]
  have hroot : g.validate = .ok ()
      ↔ (∀ id, g.root = some id → id ∈ g.ids) ∧ g.nodes.forM g.validateNode = .ok () := by
    unfold validate
    cases g.root with
    | none =>
        simp
    | some id =>
        simp [lookup_ok_iff]
  rw [hroot, hnodes]
  exact ⟨fun ⟨hid, hrequired, hnames⟩ => ⟨hid, hrequired, hnames⟩,
    fun h => ⟨h.root, h.requirements, h.names⟩⟩

end EnvLayers.Graph
