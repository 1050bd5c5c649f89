import EnvLayers.Proofs.Graph.Reach
import EnvLayers.Proofs.Outcome

/-
Module: EnvLayers.Proofs.Graph.Flags
Purpose: The visibility of requirements that are not for the host. Adding packages to a graph and
  checking it take no notice of it.
Main exports: Requirement.withoutFlag, Graph.mapNodes, Graph.withoutFlags, addNodes_withoutFlags,
  validate_withoutFlags
-/

namespace EnvLayers

/-- The requirement as not visible, unless it is for the host. -/
def Requirement.withoutFlag (r : Requirement) : Requirement :=
  if r.kind = .requires then r else { r with visible := false }

/-- The package with tools and test requirements as not visible. -/
def Node.withoutFlags (n : Node) : Node :=
  { n with requirements := n.requirements.map Requirement.withoutFlag }

theorem Node.id_withoutFlags (n : Node) : n.withoutFlags.id = n.id := rfl

@[simp] theorem Requirement.node_withoutFlag (r : Requirement) : r.withoutFlag.node = r.node := by
  unfold withoutFlag
  split <;> rfl

@[simp] theorem Requirement.kind_withoutFlag (r : Requirement) : r.withoutFlag.kind = r.kind := by
  unfold withoutFlag
  split <;> rfl

namespace Graph

/-! ### Changing packages -/

/-- The graph with its packages changed, each under its id. -/
def mapNodes (g : Graph) (change : Node → Node) (hid : ∀ n, (change n).id = n.id) : Graph :=
  { g with
    nodes := g.nodes.map change
    ids_nodup := by
      have hids : (g.nodes.map change).map (·.id) = g.nodes.map (·.id) := by
        rw [List.map_map]
        exact List.map_congr_left fun n _ => hid n
      rw [hids]
      exact g.ids_nodup }

variable {change : Node → Node} {hid : ∀ n, (change n).id = n.id}

theorem ids_mapNodes (g : Graph) : (g.mapNodes change hid).ids = g.ids := by
  rw [ids, mapNodes, List.map_map]
  exact List.map_congr_left fun n _ => hid n

theorem node?_mapNodes (g : Graph) (id : String) :
    (g.mapNodes change hid).node? id = (g.node? id).map change := by
  rw [node?, mapNodes, List.find?_map, node?]
  simp only [Function.comp_def, hid]

/-- What a change leaves as it is in each package, it leaves as it is under each id. -/
theorem targets_mapNodes {g : Graph} {follow : Requirement → Bool} {id : String}
    (h : ∀ n, n.id = id → (change n).targets follow = n.targets follow) :
    (g.mapNodes change hid).targets follow id = g.targets follow id := by
  rw [targets, targets, node?_mapNodes]
  cases hn : g.node? id with
  | none =>
      rfl
  | some n =>
      exact h n (id_of_node? hn)

/-! ### Hiding tools and test requirements -/

/-- The graph with tools and test requirements as not visible. -/
def withoutFlags (g : Graph) : Graph := g.mapNodes Node.withoutFlags Node.id_withoutFlags

theorem unknown_withoutFlags (g : Graph) (id : String) :
    g.withoutFlags.unknown id = g.unknown id := by
  rw [unknown, unknown, idsLike, idsLike, withoutFlags, ids_mapNodes]

/-- Looking up an id fails as it does with them. -/
theorem lookup_withoutFlags {α : Type} (g : Graph) (id : String) (rest : Outcome α) :
    (g.withoutFlags.node id >>= fun _ => rest) = g.node id >>= fun _ => rest := by
  rw [node, node, unknown_withoutFlags, withoutFlags, node?_mapNodes]
  cases g.node? id <;> rfl

theorem validateNode_withoutFlags (g : Graph) (n : Node) :
    g.withoutFlags.validateNode n.withoutFlags = g.validateNode n := by
  have hrequirements : (n.withoutFlags.requirements.forM fun r =>
        g.withoutFlags.node r.node >>= fun _ => pure ())
      = n.requirements.forM fun r => g.node r.node >>= fun _ => pure () := by
    refine forM_map_congr (fun r => ?_) n.requirements
    rw [lookup_withoutFlags, Requirement.node_withoutFlag]
  rw [validateNode, hrequirements]
  rfl

/-- The check takes no notice of them. -/
theorem validate_withoutFlags (g : Graph) : g.withoutFlags.validate = g.validate := by
  have hnodes : g.withoutFlags.nodes.forM g.withoutFlags.validateNode
      = g.nodes.forM g.validateNode :=
    forM_map_congr g.validateNode_withoutFlags g.nodes
  have hroot : g.withoutFlags.root = g.root := rfl
  rw [validate, validate, hnodes, hroot]
  cases g.root with
  | none =>
      rfl
  | some id =>
      exact lookup_withoutFlags g id _

/-- Adding packages takes no notice of them. -/
theorem addNode_withoutFlags (g : Graph) (n : Node) :
    g.withoutFlags.addNode n.withoutFlags = (g.addNode n).map withoutFlags := by
  have hids : n.withoutFlags.id ∈ g.withoutFlags.nodes.map (·.id) ↔ n.id ∈ g.nodes.map (·.id) := by
    have hsame : g.withoutFlags.nodes.map (·.id) = g.nodes.map (·.id) := ids_mapNodes g
    rw [hsame]
    rfl
  unfold addNode
  split
  · next hold =>
      rw [dif_pos (hids.mp hold)]
      rfl
  · next hnew =>
      rw [dif_neg (mt hids.mpr hnew)]
      simp [Except.map, withoutFlags, mapNodes]

theorem addNodes_withoutFlags (g : Graph) (nodes : List Node) :
    g.withoutFlags.addNodes (nodes.map Node.withoutFlags)
      = (g.addNodes nodes).map withoutFlags := by
  unfold addNodes
  induction nodes generalizing g with
  | nil =>
      rfl
  | cons n nodes ih =>
      rw [List.map_cons, List.foldlM_cons, List.foldlM_cons, addNode_withoutFlags]
      cases g.addNode n with
      | error failure =>
          rfl
      | ok added =>
          exact ih added

end Graph

end EnvLayers
