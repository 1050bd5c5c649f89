import EnvLayers.Proofs.Graph.Flags
import EnvLayers.Proofs.Graph.SameEdges

/-
Module: EnvLayers.Proofs.Graph.Repeated
Purpose: What repeating a requirement changes. The closure fails alike and lists the same packages.
  Its order differs only where the package is the last one that requires the target, and the
  repetition comes behind its last requirement on another package that waits for it only.
Main exports: Graph.withRequirements, Graph.Repeats, Graph.Overtaken, Repeats.sameEdges,
  Repeats.dedup_eq_iff, closure_repeated
-/

namespace EnvLayers.Graph

/-- The graph in which the package under an id has other requirements. -/
def withRequirements (g : Graph) (id : String) (requirements : List Requirement) : Graph :=
  g.mapNodes (fun n => if n.id = id then { n with requirements := requirements } else n)
    fun n => by split <;> rfl

/-- Behind the front of its list, a package can require again what it requires there. -/
structure Repeats (g : Graph) (follow : Requirement → Bool) (p : String)
    (front : List Requirement) (r : Requirement) (back : List Requirement) : Prop where
  package : ∃ n, g.node? p = some n ∧ n.requirements = front ++ back
  earlier : ∃ q ∈ front, follow q = true ∧ q.node = r.node
  followed : follow r = true

/-- A package is the last one with followed requirements on two ids, and those on the second one end
behind those on the first and before an index of its list. -/
def Overtaken (g : Graph) (follow : Requirement → Bool) (order : List String) (p id : String)
    (k : Nat) : Prop :=
  ∃ position index other index', order[position]? = some p
    ∧ g.PlacedBy follow order id position index ∧ g.PlacedBy follow order other position index'
    ∧ index < index' ∧ index' < k

variable {g : Graph} {follow : Requirement → Bool} {p id : String} {r : Requirement}
  {front back : List Requirement} {order : List String}

theorem targets_withRequirements_of_ne (hne : id ≠ p) (requirements : List Requirement) :
    (g.withRequirements p requirements).targets follow id = g.targets follow id := by
  refine targets_mapNodes fun n hn => ?_
  rw [if_neg (by rwa [hn])]

theorem targets_withRequirements_self {n : Node} (hn : g.node? p = some n)
    (requirements : List Requirement) :
    (g.withRequirements p requirements).targets follow p
      = (requirements.filter follow).map (·.node) := by
  have hnode : (g.withRequirements p requirements).node? p
      = some { n with requirements := requirements } := by
    rw [withRequirements, node?_mapNodes, hn, Option.map_some, if_pos (id_of_node? hn)]
  rw [targets_of_node? hnode]
  rfl

namespace Repeats

theorem requirementsUnder_eq (h : g.Repeats follow p front r back) :
    g.requirementsUnder p = front ++ back := by
  obtain ⟨n, hn, hsplit⟩ := h.package
  rw [requirementsUnder_of_node? hn, hsplit]

theorem mem_front (h : g.Repeats follow p front r back) :
    r.node ∈ (front.filter follow).map (·.node) := by
  obtain ⟨q, hq, hfollow, hnode⟩ := h.earlier
  exact List.mem_map.mpr ⟨q, List.mem_filter.mpr ⟨hq, hfollow⟩, hnode⟩

/-- The package has one target more. -/
theorem targets_eq (h : g.Repeats follow p front r back) :
    (g.withRequirements p (front ++ r :: back)).targets follow p
      = (front.filter follow).map (·.node) ++ r.node :: (back.filter follow).map (·.node) := by
  obtain ⟨n, hn, -⟩ := h.package
  rw [targets_withRequirements_self hn, List.filter_append, List.filter_cons_of_pos h.followed,
    List.map_append, List.map_cons]

theorem sameEdges (h : g.Repeats follow p front r back) :
    g.SameEdges (g.withRequirements p (front ++ r :: back)) follow where
  ids := ids_mapNodes g
  targets id := by
    by_cases hid : id = p
    · rw [hid, h.targets_eq, eraseDups_append_cons_of_mem h.mem_front, Graph.targets_eq,
        h.requirementsUnder_eq, List.filter_append, List.map_append]
    · rw [targets_withRequirements_of_ne hid]

/-! ### The edges before and behind the repeated requirement -/

/-- The edges of an order up to the front of the list of a package. -/
def edgesBefore (g : Graph) (follow : Requirement → Bool) (before : List String)
    (front : List Requirement) : List ((Nat ×ₗ Nat) × String) :=
  g.edges follow 0 before ++ edgesOf follow before.length 0 front

/-- The edges of an order from the back of the list of a package on. -/
def edgesBehind (g : Graph) (follow : Requirement → Bool) (before after : List String)
    (front back : List Requirement) : List ((Nat ×ₗ Nat) × String) :=
  edgesOf follow before.length front.length back ++ g.edges follow (before.length + 1) after

theorem edges_eq (h : g.Repeats follow p front r back) (before after : List String) :
    g.edges follow 0 (before ++ p :: after)
      = edgesBefore g follow before front ++ edgesBehind g follow before after front back := by
  rw [edges_append_cons, h.requirementsUnder_eq, edgesOf_append, edgesBefore, edgesBehind,
    Nat.zero_add, Nat.zero_add, List.append_assoc, List.append_assoc]

theorem lt_of_mem_edgesBefore {before : List String} {e : (Nat ×ₗ Nat) × String}
    (he : e ∈ edgesBefore g follow before front) :
    e.1 < toLex (before.length, front.length) := by
  rcases List.mem_append.mp he with he | he
  · obtain ⟨-, q, n, r, hq, -⟩ := mem_edges.mp he
    exact Prod.Lex.toLex_lt_toLex.mpr (.inl (List.getElem?_eq_some_iff.mp hq).1)
  · obtain ⟨hi, -, r, hr, -⟩ := mem_edgesOf.mp he
    exact Prod.Lex.toLex_lt_toLex.mpr (.inr ⟨hi, (List.getElem?_eq_some_iff.mp hr).1⟩)

theorem le_of_mem_edgesBehind {before after : List String} {e : (Nat ×ₗ Nat) × String}
    (he : e ∈ edgesBehind g follow before after front back) :
    toLex (before.length, front.length) ≤ e.1 := by
  rcases List.mem_append.mp he with he | he
  · obtain ⟨hi, hj, -⟩ := mem_edgesOf.mp he
    exact Prod.Lex.toLex_le_toLex.mpr (.inr ⟨hi.symm, hj⟩)
  · obtain ⟨hi, -⟩ := mem_edges.mp he
    exact Prod.Lex.toLex_le_toLex.mpr (.inl hi)

theorem flatMap_targets_eq (h : g.Repeats follow p front r back) {before after : List String}
    (hnodup : (before ++ p :: after).Nodup) :
    (before ++ p :: after).flatMap ((g.withRequirements p (front ++ r :: back)).targets follow)
      = (edgesBefore g follow before front).map (·.2)
        ++ r.node :: (edgesBehind g follow before after front back).map (·.2) := by
  obtain ⟨-, htail, hapart⟩ := List.nodup_append.mp hnodup
  have hbefore : before.flatMap ((g.withRequirements p (front ++ r :: back)).targets follow)
      = before.flatMap (g.targets follow) := List.flatMap_congr fun id hid =>
    targets_withRequirements_of_ne (hapart id hid p List.mem_cons_self) _
  have hafter : after.flatMap ((g.withRequirements p (front ++ r :: back)).targets follow)
      = after.flatMap (g.targets follow) := List.flatMap_congr fun id hid =>
    targets_withRequirements_of_ne (ne_of_mem_of_not_mem hid (List.nodup_cons.mp htail).1) _
  rw [List.flatMap_append, List.flatMap_cons, hbefore, hafter, h.targets_eq]
  simp only [edgesBefore, edgesBehind, List.map_append, map_snd_edges, map_snd_edgesOf,
    List.append_assoc, List.cons_append]

/-- Nothing of an id stands behind the front of the list exactly when its place is before there. -/
theorem lt_iff_of_placedBy (h : g.Repeats follow p front r back) {before after : List String}
    {x : String} {i j : Nat} (hplace : g.PlacedBy follow (before ++ p :: after) x i j) :
    toLex (i, j) < toLex (before.length, front.length)
      ↔ x ∉ (edgesBehind g follow before after front back).map (·.2) := by
  rw [placedBy_iff_lastKey, h.edges_eq] at hplace
  exact hplace.lt_iff (fun _ => lt_of_mem_edgesBefore) fun _ => le_of_mem_edgesBehind

/-- The target is released by the package or behind it. -/
theorem le_of_placedBy (h : g.Repeats follow p front r back) {before after : List String}
    {i j : Nat} (hplace : g.PlacedBy follow (before ++ p :: after) r.node i j) :
    before.length ≤ i := by
  obtain ⟨n, hn, hsplit⟩ := h.package
  obtain ⟨q, hq, hfollow, hnode⟩ := h.earlier
  obtain ⟨k, hk⟩ := List.mem_iff_getElem?.mp (List.mem_append_left back hq)
  exact hplace.last_package before.length k ⟨p, n, q, by simp, hn, hsplit ▸ hk, hfollow, hnode⟩

/-- What the front of the list releases stands in it or before it. -/
theorem mem_edgesBefore_of_placedBy (h : g.Repeats follow p front r back)
    {before after : List String} {x : String} {i j : Nat}
    (hplace : g.PlacedBy follow (before ++ p :: after) x i j)
    (hbehind : x ∉ (edgesBehind g follow before after front back).map (·.2)) :
    x ∈ (edgesBefore g follow before front).map (·.2) := by
  have hx := hplace.edge.mem_targets
  rw [← map_snd_edges g follow 0, h.edges_eq, List.map_append] at hx
  exact (List.mem_append.mp hx).resolve_right hbehind

/-- The repeated target comes last where it stands, before another one that does so too, exactly
when the package releases both and the other one behind it. -/
theorem overtaken_iff (h : g.Repeats follow p front r back) {before after : List String}
    (hnodup : (before ++ p :: after).Nodup) :
    (r.node ∉ (edgesBehind g follow before after front back).map (·.2)
        ∧ ∃ y ∈ (edgesBefore g follow before front).map (·.2),
          y ∉ (edgesBehind g follow before after front back).map (·.2)
            ∧ g.ReleasedBefore follow (before ++ p :: after) r.node y)
      ↔ g.Overtaken follow (before ++ p :: after) p r.node front.length := by
  have hp : (before ++ p :: after)[before.length]? = some p := by
    simp
  constructor
  · rintro ⟨-, y, -, hy, i, j, i', j', hplace, hplace', hless⟩
    -- Both places are at the package: not before it, and the second one not behind the front.
    have hfirst := h.le_of_placedBy hplace
    have hmiddle := Prod.Lex.toLex_lt_toLex.mp hless
    have hlast := Prod.Lex.toLex_lt_toLex.mp ((h.lt_iff_of_placedBy hplace').mpr hy)
    dsimp only at hmiddle hlast
    obtain ⟨rfl, rfl⟩ : i = before.length ∧ i' = before.length := by
      omega
    refine ⟨before.length, j, y, j', hp, hplace, hplace', ?_, ?_⟩
    · omega
    · omega
  · rintro ⟨i, j, y, j', hpi, hplace, hplace', hless, hbound⟩
    obtain rfl : i = before.length := by
      refine (List.getElem?_inj (List.getElem?_eq_some_iff.mp hpi).1 hnodup).mp ?_
      rw [hpi, hp]
    have hx := (h.lt_iff_of_placedBy hplace).mp
      (Prod.Lex.toLex_lt_toLex.mpr (.inr ⟨rfl, Nat.lt_trans hless hbound⟩))
    have hy := (h.lt_iff_of_placedBy hplace').mp
      (Prod.Lex.toLex_lt_toLex.mpr (.inr ⟨rfl, hbound⟩))
    exact ⟨hx, y, h.mem_edgesBefore_of_placedBy hplace' hy, hy, _, j, _, j', hplace, hplace',
      Prod.Lex.toLex_lt_toLex.mpr (.inr ⟨rfl, hless⟩)⟩

/-- The last edges of an order stand as before exactly when the target is not overtaken. -/
theorem dedup_eq_iff (h : g.Repeats follow p front r back) (hnodup : order.Nodup) :
    (order.flatMap ((g.withRequirements p (front ++ r :: back)).targets follow)).dedup
        = (order.flatMap (g.targets follow)).dedup
      ↔ ¬ g.Overtaken follow order p r.node front.length := by
  by_cases hp : p ∈ order
  · obtain ⟨before, after, rfl⟩ := List.append_of_mem hp
    have hsorted := pairwise_releasedBefore g follow (before ++ p :: after)
    rw [← map_snd_edges g follow 0 (before ++ p :: after), h.edges_eq, List.map_append] at hsorted
    have hfront : r.node ∈ (edgesBefore g follow before front).map (·.2) := by
      rw [edgesBefore, List.map_append, map_snd_edgesOf]
      exact List.mem_append_right _ h.mem_front
    rw [h.flatMap_targets_eq hnodup, ← map_snd_edges g follow 0 (before ++ p :: after), h.edges_eq,
      List.map_append, dedup_append_cons_eq_iff (fun _ _ => ReleasedBefore.asymm) hsorted hfront,
      h.overtaken_iff hnodup]
  · have hsame : order.flatMap ((g.withRequirements p (front ++ r :: back)).targets follow)
        = order.flatMap (g.targets follow) := List.flatMap_congr fun id hid =>
      targets_withRequirements_of_ne (ne_of_mem_of_not_mem hid hp) _
    rw [hsame]
    refine iff_of_true rfl ?_
    rintro ⟨position, index, other, index', hposition, -⟩
    exact hp (List.mem_of_getElem? hposition)

end Repeats

/-- Repeating a requirement keeps every failure of a closure and everything that it lists. It keeps
the order unless the target is overtaken by another one that the same package releases. Repeating a
root changes nothing. -/
theorem closure_repeated (g : Graph) (follow : Requirement → Bool)
    (requirements : List Requirement) :
    (∀ p front r back, g.Repeats follow p front r back →
      (∀ failure,
        (g.withRequirements p (front ++ r :: back)).closure follow requirements = .error failure
          ↔ g.closure follow requirements = .error failure)
      ∧ ∀ nodes, g.closure follow requirements = .ok nodes → ∃ nodes',
        (g.withRequirements p (front ++ r :: back)).closure follow requirements = .ok nodes'
          ∧ (nodes'.map (·.id)).Perm (nodes.map (·.id))
          ∧ (nodes'.map (·.id) = nodes.map (·.id)
            ↔ ¬ g.Overtaken follow (nodes.map (·.id)) p r.node front.length))
    ∧ ∀ front root back, root.node ∈ front.map (·.node) →
      g.closure follow (front ++ root :: back) = g.closure follow (front ++ back) := by
  constructor
  · intro p front r back h
    refine ⟨h.sameEdges.closure_error_iff rfl, fun nodes hnodes => ?_⟩
    obtain ⟨nodes', hnodes', hperm⟩ := h.sameEdges.exists_closure rfl hnodes
    refine ⟨nodes', hnodes', hperm, ?_⟩
    rw [h.sameEdges.order_eq_iff rfl hnodes hnodes',
      h.dedup_eq_iff (closure_ok_spec hnodes).2.2.nodup]
  · intro front root back hroot
    refine closure_eq_of_eraseDups_eq ?_
    rw [List.map_append, List.map_append, List.map_cons, eraseDups_append_cons_of_mem hroot]

/-- A program that requires two libraries. -/
def paired : Graph where
  nodes := [
    { Node.ofName "p" with requirements := [⟨"a", .requires, true⟩, ⟨"b", .requires, true⟩] },
    Node.ofName "a", Node.ofName "b"]
  ids_nodup := by decide

theorem repeats_paired :
    paired.Repeats (fun _ => true) "p" [⟨"a", .requires, true⟩, ⟨"b", .requires, true⟩]
      ⟨"a", .requires, true⟩ [] where
  package := ⟨_, rfl, rfl⟩
  earlier := ⟨_, List.mem_cons_self, rfl, rfl⟩
  followed := rfl

theorem closure_repeated_paired :
    paired.Repeats (fun _ => true) "p" [⟨"a", .requires, true⟩, ⟨"b", .requires, true⟩]
        ⟨"a", .requires, true⟩ []
      ∧ (∃ nodes, paired.closure (fun _ => true) [⟨"p", .requires, true⟩] = .ok nodes
        ∧ ∃ nodes', (paired.withRequirements "p" [⟨"a", .requires, true⟩, ⟨"b", .requires, true⟩,
            ⟨"a", .requires, true⟩]).closure (fun _ => true) [⟨"p", .requires, true⟩] = .ok nodes'
          ∧ (nodes'.map (·.id)).Perm (nodes.map (·.id))
          ∧ (nodes'.map (·.id) = nodes.map (·.id)
            ↔ ¬ paired.Overtaken (fun _ => true) (nodes.map (·.id)) "p" "a" 2))
      ∧ paired.closure (fun _ => true) [⟨"p", .requires, true⟩, ⟨"p", .requires, true⟩]
        = paired.closure (fun _ => true) [⟨"p", .requires, true⟩] := by
  have hlisted : paired.closure (fun _ => true) [⟨"p", .requires, true⟩]
      = .ok (["p", "a", "b"].filterMap paired.node?) := by
    cbv
  obtain ⟨hrequirement, hroot⟩ :=
    closure_repeated paired (fun _ => true) [⟨"p", .requires, true⟩]
  refine ⟨repeats_paired, ⟨_, hlisted, ?_⟩, ?_⟩
  · exact (hrequirement _ _ _ _ repeats_paired).2 _ hlisted
  · exact hroot [⟨"p", .requires, true⟩] ⟨"p", .requires, true⟩ [] List.mem_cons_self

/-- Naming the first library again behind the second one puts it there in the order. -/
theorem repeated_overtaken :
    paired.Repeats (fun _ => true) "p" [⟨"a", .requires, true⟩, ⟨"b", .requires, true⟩]
        ⟨"a", .requires, true⟩ []
      ∧ (paired.closure (fun _ => true) [⟨"p", .requires, true⟩]).map (List.map (·.id))
        = .ok ["p", "a", "b"]
      ∧ ((paired.withRequirements "p" [⟨"a", .requires, true⟩, ⟨"b", .requires, true⟩,
          ⟨"a", .requires, true⟩]).closure (fun _ => true)
            [⟨"p", .requires, true⟩]).map (List.map (·.id))
        = .ok ["p", "b", "a"] := by
  refine ⟨repeats_paired, ?_, ?_⟩
  · cbv
  · cbv

end EnvLayers.Graph
