import EnvLayers.Proofs.Graph.Local

/-
Module: EnvLayers.Proofs.Graph.Alike
Purpose: Graphs in which the same packages require the same. Whatever else their packages declare,
  searching them and ordering their closures goes alike, down to the failures.
Main exports: Node.shape, Graph.Alike, Alike.reaches_of_reaches, Alike.walkedAlike
-/

namespace EnvLayers

/-- What a graph says of a package apart from what the package contributes to others. -/
def Node.shape (n : Node) : String × String × List Requirement := (n.id, n.name, n.requirements)

namespace Graph

/-- Two graphs of the same packages in the same order, with the same names and the same
requirements. -/
def Alike (g g' : Graph) : Prop := g'.nodes.map Node.shape = g.nodes.map Node.shape

instance (g g' : Graph) : Decidable (g.Alike g') :=
  inferInstanceAs (Decidable (g'.nodes.map Node.shape = g.nodes.map Node.shape))

namespace Alike

variable {g g' : Graph} {follow : Requirement → Bool} {roots : List String} {id : String}
  {n n' : Node}

/-! ### Looking up -/

theorem ids_eq (h : g.Alike g') : g'.ids = g.ids := by
  have hids := congrArg (List.map Prod.fst) h
  rwa [List.map_map, List.map_map] at hids

theorem map_shape_node?_eq (h : g.Alike g') (id : String) :
    (g'.node? id).map Node.shape = (g.node? id).map Node.shape :=
  map_node?_eq (fun _ => rfl : ∀ n : Node, n.shape.1 = n.id) h id

theorem shape_eq (h : g.Alike g') (hn : g.node? id = some n) (hn' : g'.node? id = some n') :
    n'.shape = n.shape := by
  have hshape := h.map_shape_node?_eq id
  rwa [hn, hn', Option.map_some, Option.map_some, Option.some.injEq] at hshape

theorem mem_ids_iff (h : g.Alike g') (id : String) : id ∈ g'.ids ↔ id ∈ g.ids := by
  rw [h.ids_eq]

theorem node?_eq (h : g.Alike g') (id : String) :
    g'.node? id = (g.node? id).map g'.counterpart :=
  node?_eq_map_counterpart (h.mem_ids_iff id)

theorem node?_counterpart (h : g.Alike g') (hn : g.node? id = some n) :
    g'.node? id = some (g'.counterpart n) := by
  rw [h.node?_eq, hn, Option.map_some]

theorem name_counterpart (h : g.Alike g') (hn : g.node? id = some n) :
    (g'.counterpart n).name = n.name :=
  congrArg (·.2.1) (h.shape_eq hn (h.node?_counterpart hn))

theorem requirements_counterpart (h : g.Alike g') (hn : g.node? id = some n) :
    (g'.counterpart n).requirements = n.requirements :=
  congrArg (·.2.2) (h.shape_eq hn (h.node?_counterpart hn))

/-! ### Searching and ordering -/

theorem targets_eq (h : g.Alike g') (follow : Requirement → Bool) (id : String) :
    g'.targets follow id = g.targets follow id := by
  unfold targets
  rw [h.node?_eq]
  cases hn : g.node? id with
  | none =>
      rfl
  | some n =>
      simp only [Option.map_some, Node.targets, h.requirements_counterpart hn]

theorem leads_eq (h : g.Alike g') (follow : Requirement → Bool) :
    g'.Leads follow = g.Leads follow := by
  funext u v
  refine propext ?_
  rw [← mem_targets_iff, ← mem_targets_iff, h.targets_eq]

theorem reaches_of_reaches (h : g.Alike g') (hid : g.Reaches follow roots id) :
    g'.Reaches follow roots id := by
  induction hid with
  | root hroot =>
      exact .root hroot
  | step _ huv ih =>
      exact ih.step (h.leads_eq follow ▸ huv)

theorem walkedAlike (h : g.Alike g') (follow : Requirement → Bool) (roots : List String) :
    g.WalkedAlike g' follow roots :=
  fun id _ => ⟨h.mem_ids_iff id, h.targets_eq follow id⟩

end Alike

end Graph

end EnvLayers
