import EnvLayers.Proofs.Graph.Ties

/-
Module: EnvLayers.Proofs.Graph.Depth
Purpose: How deep a package stands decides its place in the order of a closure before ties are
  broken: a package comes before all that a longer walk from the roots leads to. Of packages at the
  same depth, those that only the front of the roots leads to come before those that it does not
  lead to at all.
Main exports: Graph.Shallower, TieBroken.idxOf_lt_iff_releasedBefore,
  TieBroken.idxOf_lt_of_shallower, Graph.LedToFrom, TieBroken.idxOf_lt_of_not_shallower
-/

namespace EnvLayers

section Sorted

variable {α : Type} [DecidableEq α] {r : α → α → Prop} {xs : List α} {x y : α}

/-- What stands before another member of a sorted list is related to it. -/
theorem rel_of_idxOf_lt (hsorted : xs.Pairwise r) (hy : y ∈ xs) (hlt : xs.idxOf x < xs.idxOf y) :
    r x y := by
  have hlength := List.idxOf_lt_length_of_mem hy
  have hrel := List.pairwise_iff_getElem.mp hsorted _ _ (Nat.lt_trans hlt hlength) hlength hlt
  rwa [List.getElem_idxOf, List.getElem_idxOf] at hrel

/-- Where the relation has one direction only, it is the order of the positions. -/
theorem idxOf_lt_iff_of_pairwise (hasymm : ∀ x y, r x y → ¬ r y x) (hsorted : xs.Pairwise r)
    (hx : x ∈ xs) (hy : y ∈ xs) : xs.idxOf x < xs.idxOf y ↔ r x y := by
  refine ⟨rel_of_idxOf_lt hsorted hy, fun hrel => ?_⟩
  rcases Nat.lt_trichotomy (xs.idxOf x) (xs.idxOf y) with hlt | heq | hgt
  · exact hlt
  · rw [(List.idxOf_inj hx).mp heq] at hrel
    exact absurd hrel (hasymm _ _ hrel)
  · exact absurd hrel (hasymm _ _ (rel_of_idxOf_lt hsorted hx hgt))

end Sorted

namespace Graph

open Relation (ReflTransGen TransGen)

/-- Some walk from the roots leads to the second id that is longer than every walk to the first. -/
def Shallower (g : Graph) (follow : Requirement → Bool) (roots : List String) (u v : String) :
    Prop :=
  ∃ k, v ∈ g.walkEnds follow roots k ∧ ∀ j, u ∈ g.walkEnds follow roots j → j < k

variable {g : Graph} {follow : Requirement → Bool} {roots first rest : List String}
  {nodes : List Node} {u v w x y : String}

/-! ### Walks -/

theorem mem_walkEnds_succ_iff {k : Nat} :
    v ∈ g.walkEnds follow roots (k + 1) ↔ ∃ u ∈ g.walkEnds follow roots k, g.Leads follow u v := by
  simp only [walkEnds, List.mem_flatMap, mem_targets_iff]

theorem reaches_of_mem_walkEnds {k : Nat} (h : u ∈ g.walkEnds follow roots k) :
    g.Reaches follow roots u :=
  reaches_iff_mem_walkEnds.mpr ⟨k, h⟩

/-- A walk takes no more steps than there are packages before its end. -/
theorem Orders.le_idxOf_of_mem_walkEnds (h : g.Orders follow roots nodes) {k : Nat}
    (hv : v ∈ g.walkEnds follow roots k) : k ≤ (nodes.map (·.id)).idxOf v := by
  induction k generalizing v with
  | zero =>
      exact Nat.zero_le _
  | succ k ih =>
      obtain ⟨u, hu, hlead⟩ := mem_walkEnds_succ_iff.mp hv
      exact Nat.lt_of_le_of_lt (ih hu) (h.before u v (reaches_of_mem_walkEnds hu) hlead)

/-- Among the walks to what is ordered there is a longest one. -/
theorem Orders.exists_longest (h : g.Orders follow roots nodes) (hv : g.Reaches follow roots v) :
    ∃ k, v ∈ g.walkEnds follow roots k ∧ ∀ j, v ∈ g.walkEnds follow roots j → j ≤ k := by
  classical
  obtain ⟨start, hstart⟩ := reaches_iff_mem_walkEnds.mp hv
  have hbound := h.le_idxOf_of_mem_walkEnds hstart
  have hspec := Nat.findGreatest_spec (P := (v ∈ g.walkEnds follow roots ·)) hbound hstart
  exact ⟨_, hspec, fun j hj => Nat.le_findGreatest (h.le_idxOf_of_mem_walkEnds hj) hj⟩

/-! ### Positions -/

theorem EdgeAt.exists_leads {order : List String} {i j : Nat} (h : g.EdgeAt follow order x i j) :
    ∃ p, order[i]? = some p ∧ g.Leads follow p x := by
  obtain ⟨p, n, r, hp, hn, hr, hfollow, hnode⟩ := h
  exact ⟨p, hp, n, r, hn, List.mem_of_getElem? hr, hfollow, hnode⟩

theorem exists_edgeAt {order : List String} (hu : u ∈ order) (h : g.Leads follow u v) :
    ∃ j, g.EdgeAt follow order v (order.idxOf u) j := by
  obtain ⟨n, r, hn, hr, hfollow, hnode⟩ := h
  obtain ⟨j, hj⟩ := List.mem_iff_getElem?.mp hr
  exact ⟨j, u, n, r, List.getElem?_idxOf hu, hn, hj, hfollow, hnode⟩

namespace TieBroken

/-- What something requires is not among the free roots. -/
theorem mem_rest_of_leads (h : g.TieBroken follow roots first rest)
    (hu : g.Reaches follow roots u) (huv : g.Leads follow u v) : v ∈ rest :=
  h.mem_rest_iff.mpr (h.mem_targets_iff.mpr ⟨u, hu, huv⟩)

theorem idxOf_of_mem_rest (h : g.TieBroken follow roots first rest) (hv : v ∈ rest) :
    (first ++ rest).idxOf v = rest.idxOf v + first.length := by
  have hfirst : v ∉ first := fun hmem => (List.nodup_append.mp h.nodup).2.2 v hmem v hv rfl
  rw [List.idxOf_append_of_notMem hfirst, Nat.add_comm]

theorem idxOf_lt_of_first (h : g.TieBroken follow roots first rest) (hu : u ∈ first)
    (hv : v ∈ rest) : (first ++ rest).idxOf u < (first ++ rest).idxOf v := by
  have hlt := List.idxOf_lt_length_of_mem hu
  rw [List.idxOf_append_of_mem hu, h.idxOf_of_mem_rest hv]
  omega

theorem mem_rest_of_placedBy (h : g.TieBroken follow roots first rest) {i j : Nat}
    (hplace : g.PlacedBy follow (first ++ rest) x i j) : x ∈ rest :=
  h.mem_rest_iff.mpr hplace.edge.mem_targets

/-- What is not among the free roots stands before another id as the last edges to both do. -/
theorem idxOf_lt_iff_releasedBefore (h : g.TieBroken follow roots first rest) (hx : x ∈ rest)
    (hy : y ∈ first ++ rest) : (first ++ rest).idxOf x < (first ++ rest).idxOf y
      ↔ g.ReleasedBefore follow (first ++ rest) x y := by
  rcases List.mem_append.mp hy with hfirst | hrest
  · have hlt := h.idxOf_lt_of_first hfirst hx
    refine iff_of_false (by omega) ?_
    rintro ⟨_, _, _, _, _, hplace, _⟩
    exact (List.nodup_append.mp h.nodup).2.2 y hfirst y (h.mem_rest_of_placedBy hplace) rfl
  · rw [h.idxOf_of_mem_rest hx, h.idxOf_of_mem_rest hrest, Nat.add_lt_add_iff_right]
    exact idxOf_lt_iff_of_pairwise (fun _ _ hrel => hrel.asymm) h.increasing hx hrest

/-- The last package that requires an id. What is required by a package further behind is released
later. -/
theorem exists_last (h : g.TieBroken follow roots first rest) (hx : x ∈ rest) :
    ∃ p, g.Reaches follow roots p ∧ g.Leads follow p x
      ∧ ∀ y w, g.Reaches follow roots w → g.Leads follow w y →
        (first ++ rest).idxOf p < (first ++ rest).idxOf w →
        (first ++ rest).idxOf x < (first ++ rest).idxOf y := by
  obtain ⟨i, j, hplace⟩ := h.placed x hx
  obtain ⟨p, hp, hlead⟩ := hplace.edge.exists_leads
  have hpos : (first ++ rest).idxOf p = i := by
    obtain ⟨hi, rfl⟩ := List.getElem?_eq_some_iff.mp hp
    exact h.nodup.idxOf_getElem i hi
  refine ⟨p, (h.mem_iff p).mp (List.mem_of_getElem? hp), hlead, fun y w hw hwy hlt => ?_⟩
  have hy := h.mem_rest_of_leads hw hwy
  obtain ⟨i', j', hplace'⟩ := h.placed y hy
  obtain ⟨k, hedge⟩ := exists_edgeAt ((h.mem_iff w).mpr hw) hwy
  have hle := hplace'.last_package _ _ hedge
  rw [h.idxOf_lt_iff_releasedBefore hx (List.mem_append_right _ hy)]
  exact ⟨i, j, i', j', hplace, hplace', Prod.Lex.toLex_lt_toLex.mpr (.inl (by omega))⟩

/-! ### Depth -/

/-- A package stands before every package that a longer walk leads to. -/
theorem idxOf_lt_of_shallower (h : g.TieBroken follow roots first rest)
    (hu : g.Reaches follow roots u) (hless : g.Shallower follow roots u v) :
    (first ++ rest).idxOf u < (first ++ rest).idxOf v := by
  -- The step before the last one of the longer walk is compared with the last package that
  -- requires the first id.
  obtain ⟨k, hv, hshort⟩ := hless
  induction k generalizing u v with
  | zero =>
      obtain ⟨j, hj⟩ := reaches_iff_mem_walkEnds.mp hu
      exact absurd (hshort j hj) (Nat.not_lt_zero j)
  | succ k ih =>
      obtain ⟨w, hw, hwv⟩ := mem_walkEnds_succ_iff.mp hv
      have hwr := reaches_of_mem_walkEnds hw
      by_cases hrest : u ∈ rest
      · obtain ⟨p, hp, hpu, hlast⟩ := h.exists_last hrest
        refine hlast v w hwr hwv (ih hp hw fun j hj => ?_)
        have hstep := hshort (j + 1) (mem_walkEnds_succ_iff.mpr ⟨p, hj, hpu⟩)
        omega
      · have hfirst := (List.mem_append.mp ((h.mem_iff u).mpr hu)).resolve_right hrest
        exact h.idxOf_lt_of_first hfirst (h.mem_rest_of_leads hwr hwv)

end TieBroken

/-! ### The front of the roots -/

variable {front back : List String}

/-- Every package that some roots lead to and that leads to an id, the id among them, is one that
the front of the roots leads to. -/
def LedToFrom (g : Graph) (follow : Requirement → Bool) (front roots : List String)
    (id : String) : Prop :=
  ∀ p, g.Reaches follow roots p → ReflTransGen (g.Leads follow) p id → g.Reaches follow front p

theorem LedToFrom.of_leads (h : g.LedToFrom follow front roots v) (huv : g.Leads follow u v) :
    g.LedToFrom follow front roots u :=
  fun p hp hpath => h p hp (hpath.tail huv)

theorem Reaches.append_left (h : g.Reaches follow front u) :
    g.Reaches follow (front ++ back) u :=
  h.of_roots fun _ hr => .root (List.mem_append_left back hr)

namespace TieBroken

/-- Of the free roots, those in the front come before the others. -/
theorem idxOf_lt_of_free (h : g.TieBroken follow (front ++ back) first rest) (hu : u ∈ first)
    (hv : v ∈ first) (hfront : u ∈ front) (hback : v ∉ front) :
    (first ++ rest).idxOf u < (first ++ rest).idxOf v := by
  have hroots : (front ++ back).eraseDups.Pairwise fun x y => y ∈ front → x ∈ front := by
    rw [eraseDups_append_newTo, List.pairwise_append]
    have hmem : ∀ x ∈ front.eraseDups, x ∈ front := fun x hx => List.mem_eraseDups.mp hx
    refine ⟨List.pairwise_of_forall_mem_list fun x hx _ _ _ => hmem x hx,
      List.pairwise_of_forall_mem_list fun _ _ y hy hfront => ?_, fun x hx _ _ _ => hmem x hx⟩
    exact absurd hfront (mem_newTo.mp hy).2
  rw [List.idxOf_append_of_mem hu, List.idxOf_append_of_mem hv]
  rcases Nat.lt_trichotomy (first.idxOf u) (first.idxOf v) with hlt | heq | hgt
  · exact hlt
  · rw [(List.idxOf_inj hu).mp heq] at hfront
    exact absurd hfront hback
  · exact absurd (rel_of_idxOf_lt (hroots.sublist h.first_sublist) hu hgt hfront) hback

/-- A free root that the front leads to stands there. -/
theorem mem_front_of_free (h : g.TieBroken follow (front ++ back) first rest) (hu : u ∈ first)
    (hreach : g.Reaches follow front u) : u ∈ front := by
  cases hreach with
  | root hroot =>
      exact hroot
  | step hp hpu =>
      exact absurd hpu (h.free u hu _ hp.append_left)

end TieBroken

/-- Some package that requires an id is not shallower than one that requires another, which is not
deeper. -/
theorem Orders.exists_leads_not_shallower (h : g.Orders follow roots nodes)
    (hx : g.Reaches follow roots x) (hlead : g.Leads follow x u)
    (hdeep : ¬ g.Shallower follow roots v u) :
    ∃ w, g.Reaches follow roots w ∧ g.Leads follow w v ∧ ¬ g.Shallower follow roots w x := by
  obtain ⟨k, hk, hmax⟩ := h.exists_longest hx
  by_contra hnone
  simp only [not_exists, not_and, not_not] at hnone
  refine hdeep ⟨k + 1, mem_walkEnds_succ_iff.mpr ⟨x, hk, hlead⟩, fun j hj => ?_⟩
  cases j with
  | zero =>
      exact Nat.succ_pos k
  | succ j =>
      obtain ⟨w, hw, hwv⟩ := mem_walkEnds_succ_iff.mp hj
      obtain ⟨i, hi, hshort⟩ := hnone w (reaches_of_mem_walkEnds hw) hwv
      have hle := hmax i hi
      have hlt := hshort j hw
      omega

/-- What only the front of the roots leads to stands before everything that the front does not lead
to and that is not shallower. -/
theorem TieBroken.idxOf_lt_of_not_shallower
    (h : g.TieBroken follow (front ++ back) first rest)
    (horders : g.Orders follow (front ++ back) nodes) (hids : nodes.map (·.id) = first ++ rest)
    (hu : g.Reaches follow (front ++ back) u) (hfront : g.LedToFrom follow front (front ++ back) u)
    (hv : g.Reaches follow (front ++ back) v) (hback : ¬ g.Reaches follow front v)
    (hdeep : ¬ g.Shallower follow (front ++ back) v u) :
    (first ++ rest).idxOf u < (first ++ rest).idxOf v := by
  -- By induction on the position of the first id: the last package that requires it is compared
  -- with one that requires the other id and is not shallower.
  induction hn : (first ++ rest).idxOf u using Nat.strong_induction_on generalizing u v with
  | _ n ih =>
      subst hn
      by_cases hrest : u ∈ rest
      · obtain ⟨p, hp, hpu, hlast⟩ := h.exists_last hrest
        obtain ⟨w, hw, hwv, hdeep'⟩ := horders.exists_leads_not_shallower hp hpu hdeep
        have hbefore := horders.before p u hp hpu
        rw [hids] at hbefore
        refine hlast v w hw hwv (ih _ hbefore hp (hfront.of_leads hpu) hw (fun hreach => ?_)
          hdeep' rfl)
        exact hback (hreach.step hwv)
      · have hfirst := (List.mem_append.mp ((h.mem_iff u).mpr hu)).resolve_right hrest
        rcases List.mem_append.mp ((h.mem_iff v).mpr hv) with hv' | hv'
        · exact h.idxOf_lt_of_free hfirst hv' (h.mem_front_of_free hfirst (hfront u hu .refl))
            fun hroot => hback (.root hroot)
        · exact h.idxOf_lt_of_first hfirst hv'

end Graph

end EnvLayers
