import EnvLayers.Proofs.Graph.ClosureOrder
import EnvLayers.Proofs.Graph.Release
import Mathlib

/-
Module: EnvLayers.Proofs.Graph.Ties
Purpose: How the order of a closure breaks ties. The packages that nothing in the closure requires
  come first, as the roots name them. Every other one has a place: the position of the last package
  that requires it, and there the index of the last followed requirement on it. These come in the
  order of their places, and only one order is like that.
Main exports: Graph.EdgeAt, Graph.PlacedBy, Graph.ReleasedBefore, Graph.TieBroken, Graph.edges,
  pairwise_releasedBefore, order_emitted, tieBroken_iff, Orders.eq_of_last, closure_ties
-/

namespace EnvLayers.Graph

/-- A followed requirement on an id stands at an index in the list of the package at a position. -/
def EdgeAt (g : Graph) (follow : Requirement → Bool) (order : List String) (id : String)
    (position index : Nat) : Prop :=
  ∃ p n r, order[position]? = some p ∧ g.node? p = some n ∧ n.requirements[index]? = some r
    ∧ follow r = true ∧ r.node = id

/-- The place of an id in an order: the position of the last package with a followed requirement on
it, and the index of the last such requirement there. -/
structure PlacedBy (g : Graph) (follow : Requirement → Bool) (order : List String) (id : String)
    (position index : Nat) : Prop where
  edge : g.EdgeAt follow order id position index
  last_package : ∀ i j, g.EdgeAt follow order id i j → i ≤ position
  last_edge : ∀ j, g.EdgeAt follow order id position j → j ≤ index

/-- The place of one id is lexicographically less than that of another. -/
def ReleasedBefore (g : Graph) (follow : Requirement → Bool) (order : List String)
    (x y : String) : Prop :=
  ∃ i j i' j', g.PlacedBy follow order x i j ∧ g.PlacedBy follow order y i' j'
    ∧ toLex (i, j) < toLex (i', j')

/-- An order of what the roots lead to in which ties are broken: those that nothing of it requires
are first, as they come first among the roots, and the rest stand in the order of their places. -/
structure TieBroken (g : Graph) (follow : Requirement → Bool) (roots first rest : List String) :
    Prop where
  nodup : (first ++ rest).Nodup
  mem_iff : ∀ id, id ∈ first ++ rest ↔ g.Reaches follow roots id
  free : ∀ id ∈ first, ∀ u, g.Reaches follow roots u → ¬ g.Leads follow u id
  first_sublist : first.Sublist roots.eraseDups
  placed : ∀ id ∈ rest, ∃ position index, g.PlacedBy follow (first ++ rest) id position index
  increasing : rest.Pairwise (g.ReleasedBefore follow (first ++ rest))

variable {g : Graph} {follow : Requirement → Bool} {roots order : List String} {id : String}

/-! ### The edges of an order and their places -/

/-- The requirements of the package under an id, none where there is none. -/
def requirementsUnder (g : Graph) (id : String) : List Requirement :=
  (g.node? id).elim [] (·.requirements)

/-- The followed ones of some requirements that stand from an index on in the list of the package at
a position, each as its place and its target. -/
def edgesOf (follow : Requirement → Bool) (position start : Nat)
    (requirements : List Requirement) : List ((Nat ×ₗ Nat) × String) :=
  ((requirements.zipIdx start).filter (follow ·.1)).map
    fun entry => (toLex (position, entry.2), entry.1.node)

/-- The followed requirements of the packages in a part of an order that starts at a position. -/
def edges (g : Graph) (follow : Requirement → Bool) (start : Nat) (order : List String) :
    List ((Nat ×ₗ Nat) × String) :=
  (order.zipIdx start).flatMap fun entry => edgesOf follow entry.2 0 (g.requirementsUnder entry.1)

theorem requirementsUnder_of_node? {n : Node} (h : g.node? id = some n) :
    g.requirementsUnder id = n.requirements := by
  rw [requirementsUnder, h, Option.elim_some]

theorem targets_eq (g : Graph) (follow : Requirement → Bool) (id : String) :
    g.targets follow id = ((g.requirementsUnder id).filter follow).map (·.node) := by
  unfold targets requirementsUnder
  cases g.node? id <;> rfl

theorem pairwise_snd_zipIdx {α : Type} (xs : List α) (start : Nat) :
    (xs.zipIdx start).Pairwise fun entry entry' => entry.2 < entry'.2 := by
  rw [← List.pairwise_map, List.zipIdx_map_snd]
  exact List.pairwise_lt_range' 1

theorem mem_edgesOf {requirements : List Requirement} {position start i j : Nat} :
    (toLex (i, j), id) ∈ edgesOf follow position start requirements
      ↔ i = position ∧ start ≤ j
        ∧ ∃ r, requirements[j - start]? = some r ∧ follow r = true ∧ r.node = id := by
  simp only [edgesOf, List.mem_map, List.mem_filter, Prod.exists, Prod.mk.injEq,
    EmbeddingLike.apply_eq_iff_eq, List.mk_mem_zipIdx_iff_le_and_getElem?_sub]
  constructor
  · rintro ⟨r, k, ⟨⟨hstart, hr⟩, hfollow⟩, ⟨rfl, rfl⟩, rfl⟩
    exact ⟨rfl, hstart, r, hr, hfollow, rfl⟩
  · rintro ⟨rfl, hstart, r, hr, hfollow, rfl⟩
    exact ⟨r, j, ⟨⟨hstart, hr⟩, hfollow⟩, ⟨rfl, rfl⟩, rfl⟩

theorem map_snd_edgesOf (follow : Requirement → Bool) (position start : Nat)
    (requirements : List Requirement) :
    (edgesOf follow position start requirements).map (·.2)
      = (requirements.filter follow).map (·.node) := by
  have hkept : requirements.filter follow
      = ((requirements.zipIdx start).filter (follow ·.1)).map (·.1) := by
    conv_lhs => rw [← List.zipIdx_map_fst start requirements, List.filter_map]
    rfl
  rw [edgesOf, List.map_map, hkept, List.map_map]
  rfl

theorem sorted_edgesOf (follow : Requirement → Bool) (position start : Nat)
    (requirements : List Requirement) :
    (edgesOf follow position start requirements).Pairwise fun e e' => e.1 < e'.1 := by
  rw [edgesOf, List.pairwise_map]
  refine ((pairwise_snd_zipIdx requirements start).filter _).imp fun hless => ?_
  exact Prod.Lex.toLex_lt_toLex.mpr (.inr ⟨rfl, hless⟩)

theorem mem_edges {start i j : Nat} :
    (toLex (i, j), id) ∈ g.edges follow start order
      ↔ start ≤ i ∧ g.EdgeAt follow order id (i - start) j := by
  simp only [edges, List.mem_flatMap, Prod.exists, mem_edgesOf, Nat.zero_le, true_and,
    Nat.sub_zero, List.mk_mem_zipIdx_iff_le_and_getElem?_sub, EdgeAt]
  constructor
  · rintro ⟨p, k, ⟨hstart, hp⟩, rfl, r, hr, hfollow, rfl⟩
    cases hn : g.node? p with
    | none =>
        simp [requirementsUnder, hn] at hr
    | some n =>
        rw [requirementsUnder_of_node? hn] at hr
        exact ⟨hstart, p, n, r, hp, hn, hr, hfollow, rfl⟩
  · rintro ⟨hstart, p, n, r, hp, hn, hr, hfollow, rfl⟩
    rw [← requirementsUnder_of_node? hn] at hr
    exact ⟨p, i, ⟨hstart, hp⟩, rfl, r, hr, hfollow, rfl⟩

theorem map_snd_edges (g : Graph) (follow : Requirement → Bool) (start : Nat)
    (order : List String) :
    (g.edges follow start order).map (·.2) = order.flatMap (g.targets follow) := by
  have htargets : order.flatMap (g.targets follow)
      = (order.zipIdx start).flatMap fun entry => g.targets follow entry.1 := by
    conv_lhs => rw [← List.zipIdx_map_fst start order, List.flatMap_map]
  rw [edges, List.map_flatMap, htargets]
  refine List.flatMap_congr fun entry _ => ?_
  rw [map_snd_edgesOf, targets_eq]

/-- The places of edges grow along an order. -/
theorem sorted_edges (g : Graph) (follow : Requirement → Bool) (start : Nat)
    (order : List String) : (g.edges follow start order).Pairwise fun e e' => e.1 < e'.1 := by
  rw [edges, List.pairwise_flatMap]
  refine ⟨fun entry _ => sorted_edgesOf _ _ _ _, ?_⟩
  refine (pairwise_snd_zipIdx order start).imp fun hless e he e' he' => ?_
  obtain ⟨_, _, rfl⟩ := List.mem_map.mp he
  obtain ⟨_, _, rfl⟩ := List.mem_map.mp he'
  exact Prod.Lex.toLex_lt_toLex.mpr (.inl hless)

theorem edgesOf_append (follow : Requirement → Bool) (position start : Nat)
    (front back : List Requirement) :
    edgesOf follow position start (front ++ back)
      = edgesOf follow position start front
        ++ edgesOf follow position (start + front.length) back := by
  simp only [edgesOf, List.zipIdx_append, List.filter_append, List.map_append]

theorem edges_append_cons (g : Graph) (follow : Requirement → Bool) (start : Nat)
    (before after : List String) (p : String) :
    g.edges follow start (before ++ p :: after)
      = g.edges follow start before
        ++ (edgesOf follow (start + before.length) 0 (g.requirementsUnder p)
          ++ g.edges follow (start + before.length + 1) after) := by
  simp only [edges, List.zipIdx_append, List.zipIdx_cons, List.flatMap_append, List.flatMap_cons]

/-- The place of an id is the last one at which an edge leads to it. -/
theorem placedBy_iff_lastKey {i j : Nat} :
    g.PlacedBy follow order id i j ↔ LastKey (g.edges follow 0 order) id (toLex (i, j)) := by
  have hedge : ∀ i j, (toLex (i, j), id) ∈ g.edges follow 0 order
      ↔ g.EdgeAt follow order id i j := by
    intro i j
    rw [mem_edges, Nat.sub_zero, and_iff_right (Nat.zero_le i)]
  constructor
  · rintro ⟨hat, hpackage, hlast⟩
    refine ⟨(hedge i j).mpr hat, fun k hk => ?_⟩
    have hk' := (hedge k.1 k.2).mp hk
    rcases Nat.lt_or_eq_of_le (hpackage _ _ hk') with hless | heq
    · exact Prod.Lex.toLex_le_toLex.mpr (.inl hless)
    · exact Prod.Lex.toLex_le_toLex.mpr (.inr ⟨heq, hlast _ (heq ▸ hk')⟩)
  · rintro ⟨hat, hlast⟩
    refine ⟨(hedge i j).mp hat, fun i' j' hat' => ?_, fun j' hat' => ?_⟩
    · have hle := Prod.Lex.toLex_le_toLex.mp (hlast _ ((hedge i' j').mpr hat'))
      rcases hle with hless | ⟨heq, -⟩
      · exact Nat.le_of_lt hless
      · exact Nat.le_of_eq heq
    · have hle := Prod.Lex.toLex_le_toLex.mp (hlast _ ((hedge i j').mpr hat'))
      rcases hle with hless | ⟨-, hle⟩
      · exact absurd hless (Nat.lt_irrefl i)
      · exact hle

theorem releasedBefore_iff_lastKey {x y : String} :
    g.ReleasedBefore follow order x y ↔ ∃ k k', LastKey (g.edges follow 0 order) x k
      ∧ LastKey (g.edges follow 0 order) y k' ∧ k < k' := by
  unfold ReleasedBefore
  simp only [placedBy_iff_lastKey]
  constructor
  · rintro ⟨i, j, i', j', hx, hy, hless⟩
    exact ⟨_, _, hx, hy, hless⟩
  · rintro ⟨k, k', hx, hy, hless⟩
    exact ⟨k.1, k.2, k'.1, k'.2, hx, hy, hless⟩

theorem ReleasedBefore.asymm {x y : String} (h : g.ReleasedBefore follow order x y) :
    ¬ g.ReleasedBefore follow order y x := by
  rw [releasedBefore_iff_lastKey] at h ⊢
  rintro ⟨l, l', hy', hx', hless'⟩
  obtain ⟨k, k', hx, hy, hless⟩ := h
  rw [hx.unique hx', hy.unique hy'] at hless
  exact lt_asymm hless hless'

/-! ### The order of the places -/

/-- Every target of an order has a place there. -/
theorem exists_placedBy (h : id ∈ order.flatMap (g.targets follow)) :
    ∃ position index, g.PlacedBy follow order id position index := by
  rw [← map_snd_edges g follow 0] at h
  obtain ⟨k, hk⟩ := exists_lastKey (sorted_edges g follow 0 order) h
  exact ⟨k.1, k.2, placedBy_iff_lastKey.mpr hk⟩

theorem EdgeAt.mem_targets {i j : Nat} (h : g.EdgeAt follow order id i j) :
    id ∈ order.flatMap (g.targets follow) := by
  rw [← map_snd_edges g follow 0]
  exact List.mem_map_of_mem (mem_edges.mpr ⟨Nat.zero_le i, h⟩)

/-- The targets of an order, each where it stands last, come in the order of their places. -/
theorem pairwise_releasedBefore (g : Graph) (follow : Requirement → Bool) (order : List String) :
    (order.flatMap (g.targets follow)).dedup.Pairwise (g.ReleasedBefore follow order) := by
  have hsorted := pairwise_dedup_lastKey (sorted_edges g follow 0 order)
  rw [map_snd_edges] at hsorted
  exact hsorted.imp releasedBefore_iff_lastKey.mpr

/-- Only one list of given members stands in the order of their places. -/
theorem eq_dedup_of_pairwise {rest : List String} (hnodup : rest.Nodup)
    (hsame : ∀ id, id ∈ rest ↔ id ∈ order.flatMap (g.targets follow))
    (hsorted : rest.Pairwise (g.ReleasedBefore follow order)) :
    rest = (order.flatMap (g.targets follow)).dedup := by
  have hperm : rest.Perm (order.flatMap (g.targets follow)).dedup := by
    refine (List.perm_ext_iff_of_nodup hnodup (List.nodup_dedup _)).mpr fun id => ?_
    rw [hsame, List.mem_dedup]
  exact hperm.eq_of_pairwise (fun _ _ _ _ h h' => absurd h' h.asymm) hsorted
    (pairwise_releasedBefore g follow order)

/-! ### The order of a closure -/

variable {found : List String}

/-- Where nothing leads back to itself, the free roots are emitted first, and then every other id
as the last edge to it is taken away. -/
theorem order_emitted (hfound : g.discover follow roots = .ok found)
    (hacyclic : ¬ g.Cyclic follow roots) :
    (g.emitted follow roots found).order = freeRoots (g.targets follow) found roots
      ++ ((g.emitted follow roots found).order.flatMap (g.targets follow)).dedup := by
  obtain ⟨hnodup, -, -⟩ := discover_ok_spec hfound
  exact order_run_startEmission hnodup (fun _ hu => targets_subset_of_discover hfound hu)
    (invariant_start_of_discover hfound) fun id hid => mem_emitted_of_acyclic hfound hacyclic hid

theorem mem_freeRoots_iff (hfound : g.discover follow roots = .ok found) :
    id ∈ freeRoots (g.targets follow) found roots
      ↔ id ∈ roots ∧ ∀ u, g.Reaches follow roots u → ¬ g.Leads follow u id := by
  obtain ⟨-, hmem, -⟩ := discover_ok_spec hfound
  simp only [mem_freeRoots, List.mem_flatMap, not_exists, not_and, hmem, mem_targets_iff]

theorem freeRoots_sublist (targets : String → List String) (closure roots : List String) :
    (freeRoots targets closure roots).Sublist roots.eraseDups := by
  rw [freeRoots, eraseDups_filter]
  exact List.filter_sublist

theorem TieBroken.mem_targets_iff {first rest : List String}
    (h : g.TieBroken follow roots first rest) :
    id ∈ (first ++ rest).flatMap (g.targets follow)
      ↔ ∃ u, g.Reaches follow roots u ∧ g.Leads follow u id := by
  simp only [List.mem_flatMap, h.mem_iff, Graph.mem_targets_iff]

/-- The rest are the targets of the order. -/
theorem TieBroken.mem_rest_iff {first rest : List String}
    (h : g.TieBroken follow roots first rest) :
    id ∈ rest ↔ id ∈ (first ++ rest).flatMap (g.targets follow) := by
  constructor
  · intro hid
    obtain ⟨position, index, hplace⟩ := h.placed id hid
    exact hplace.edge.mem_targets
  · intro hid
    obtain ⟨u, hu, hlead⟩ := h.mem_targets_iff.mp hid
    refine (List.mem_append.mp ((h.mem_iff id).mpr (hu.step hlead))).resolve_left fun hfirst => ?_
    exact h.free id hfirst u hu hlead

theorem TieBroken.rest_eq {first rest : List String} (h : g.TieBroken follow roots first rest) :
    rest = ((first ++ rest).flatMap (g.targets follow)).dedup :=
  eq_dedup_of_pairwise (List.nodup_append.mp h.nodup).2.1 (fun _ => h.mem_rest_iff) h.increasing

theorem TieBroken.first_eq (hfound : g.discover follow roots = .ok found)
    {first rest : List String} (h : g.TieBroken follow roots first rest) :
    first = freeRoots (g.targets follow) found roots := by
  have hsame : ∀ id, id ∈ first ↔ id ∈ freeRoots (g.targets follow) found roots := by
    intro id
    rw [mem_freeRoots_iff hfound]
    constructor
    · intro hid
      exact ⟨List.mem_eraseDups.mp (h.first_sublist.subset hid), h.free id hid⟩
    · rintro ⟨hroot, hfree⟩
      refine (List.mem_append.mp ((h.mem_iff id).mpr (.root hroot))).resolve_right fun hid => ?_
      obtain ⟨u, hu, hlead⟩ := h.mem_targets_iff.mp (h.mem_rest_iff.mp hid)
      exact hfree u hu hlead
  have hroots := nodup_newTo [] roots
  rw [nil_newTo] at hroots
  have hsublist := freeRoots_sublist (g.targets follow) found roots
  exact (hroots.perm_iff_eq_of_sublist h.first_sublist hsublist).mp
    ((List.perm_ext_iff_of_nodup (hroots.sublist h.first_sublist)
      (hroots.sublist hsublist)).mpr hsame)

/-- Ties are broken in an order of what the roots lead to exactly when the free roots are first and
the rest stand as the last edges to them do. -/
theorem tieBroken_iff (hfound : g.discover follow roots = .ok found) {first rest : List String} :
    g.TieBroken follow roots first rest
      ↔ (first ++ rest).Nodup ∧ (∀ id, id ∈ first ++ rest ↔ g.Reaches follow roots id)
        ∧ first = freeRoots (g.targets follow) found roots
        ∧ rest = ((first ++ rest).flatMap (g.targets follow)).dedup := by
  constructor
  · intro h
    exact ⟨h.nodup, h.mem_iff, h.first_eq hfound, h.rest_eq⟩
  · rintro ⟨hnodup, hmem, hfirst, hrest⟩
    refine ⟨hnodup, hmem, fun id hid => ?_, ?_, fun id hid => ?_, ?_⟩
    · rw [hfirst] at hid
      exact ((mem_freeRoots_iff hfound).mp hid).2
    · rw [hfirst]
      exact freeRoots_sublist _ _ _
    · rw [hrest, List.mem_dedup] at hid
      exact exists_placedBy hid
    · have hsorted := pairwise_releasedBefore g follow (first ++ rest)
      rwa [← hrest] at hsorted

variable {requirements : List Requirement}

/-- The ids of a closure that succeeds are those of its emission. -/
theorem map_id_of_closure {nodes : List Node}
    (hfound : g.discover follow (requirements.map (·.node)) = .ok found)
    (h : g.closure follow requirements = .ok nodes) :
    nodes.map (·.id) = (g.emitted follow (requirements.map (·.node)) found).order := by
  obtain ⟨hcomplete, hacyclic, -⟩ := closure_ok_spec h
  have hdeclared : ∀ id ∈ (g.emitted follow (requirements.map (·.node)) found).order,
      id ∈ g.ids := by
    intro id hid
    exact hcomplete id (((discover_ok_spec hfound).2.1 id).mp (emitted_subset hfound hid))
  rw [closure_of_discover_acyclic hfound hacyclic] at h
  rw [← Except.ok.inj h]
  exact map_id_filterMap_node? hdeclared

/-- Only one order of what the roots lead to begins with the free roots and goes on as the last
edges in it do. -/
theorem Orders.eq_of_last {nodes : List Node} {start ids : List String}
    (horders : g.Orders follow roots nodes) (hacyclic : ¬ g.Cyclic follow roots)
    (hnodup : ids.Nodup) (hmem : ∀ id, id ∈ ids ↔ g.Reaches follow roots id)
    (h : nodes.map (·.id)
      = start ++ ((nodes.map (·.id)).flatMap (g.targets follow)).dedup)
    (hids : ids = start ++ (ids.flatMap (g.targets follow)).dedup) : ids = nodes.map (·.id) := by
  refine order_unique horders.nodup hnodup (fun id => ?_) (fun id hid hcycle => ?_) h hids
  · rw [hmem, horders.mem_iff]
  · exact hacyclic ⟨id, (horders.mem_iff id).mp hid, transGen_targets_iff.mp hcycle⟩

/-- The closure of some requirements breaks ties by the order of declaration. First come, as the
roots name them, the packages that nothing in the closure requires. Each other one is placed by the
position of the last package that requires it and the index of the last followed requirement on it
there, and they come in the lexicographic order of their places. No other order is like that. -/
theorem closure_ties {nodes : List Node} (h : g.closure follow requirements = .ok nodes) :
    ∃ first rest, nodes.map (·.id) = first ++ rest
      ∧ g.TieBroken follow (requirements.map (·.node)) first rest
      ∧ ∀ first' rest', g.TieBroken follow (requirements.map (·.node)) first' rest' →
        first' = first ∧ rest' = rest := by
  obtain ⟨hcomplete, hacyclic, horders⟩ := closure_ok_spec h
  obtain ⟨found, hfound⟩ := exists_discover_iff_complete.mpr hcomplete
  have horder := order_emitted hfound hacyclic
  rw [← map_id_of_closure hfound h] at horder
  refine ⟨_, _, horder, (tieBroken_iff hfound).mpr ?_, fun first' rest' h' => ?_⟩
  · rw [← horder]
    exact ⟨horders.nodup, horders.mem_iff, rfl, rfl⟩
  · obtain ⟨hnodup', hmem', hfirst', hrest'⟩ := (tieBroken_iff hfound).mp h'
    have horder' := congrArg₂ (· ++ ·) hfirst' hrest'
    rw [horders.eq_of_last hacyclic hnodup' hmem' horder horder'] at hrest'
    exact ⟨hfirst', hrest'⟩

/-- Two programs, of which one names a library again behind the next one and both need the last. -/
def doubled : Graph where
  nodes := [
    { Node.ofName "p" with
      requirements := [⟨"a", .requires, true⟩, ⟨"b", .requires, true⟩, ⟨"a", .requires, true⟩,
        ⟨"c", .requires, true⟩] },
    { Node.ofName "q" with requirements := [⟨"c", .requires, true⟩] },
    Node.ofName "a", Node.ofName "b", Node.ofName "c"]
  ids_nodup := by decide

/-- The library that is named again comes behind the next one, and the last one behind both. -/
theorem closure_ties_doubled :
    ∃ nodes, doubled.closure (fun _ => true)
        [⟨"q", .requires, true⟩, ⟨"p", .requires, true⟩, ⟨"q", .requires, true⟩] = .ok nodes
      ∧ nodes.map (·.id) = ["q", "p", "b", "a", "c"]
      ∧ ∃ first rest, nodes.map (·.id) = first ++ rest
        ∧ doubled.TieBroken (fun _ => true) ["q", "p", "q"] first rest
        ∧ ∀ first' rest', doubled.TieBroken (fun _ => true) ["q", "p", "q"] first' rest' →
          first' = first ∧ rest' = rest := by
  have hlisted : doubled.closure (fun _ => true)
      [⟨"q", .requires, true⟩, ⟨"p", .requires, true⟩, ⟨"q", .requires, true⟩]
        = .ok (["q", "p", "b", "a", "c"].filterMap doubled.node?) := by
    -- Unfolds by equations. Those of core functions stand at many places of Mathlib, which is
    -- imported whole for them.
    cbv
  exact ⟨_, hlisted, by cbv, closure_ties hlisted⟩

end EnvLayers.Graph
