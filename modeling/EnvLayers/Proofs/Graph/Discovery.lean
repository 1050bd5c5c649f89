import EnvLayers.Proofs.FirstSeen
import EnvLayers.Proofs.Graph.Reach

/-
Module: EnvLayers.Proofs.Graph.Discovery
Purpose: The search behind `Graph.discover` finds the ids that the roots lead to in breadth-first
  order, and fails exactly where one of them is not declared, at the first one. The queue of the
  search is cut into levels: a level is searched as a whole, and what it leaves behind differs from
  the walks that are one step longer only in ids that were found before.
Main exports: discoverFrom_level, discover_firstMissing, Searched, discover_ok_spec,
  exists_discover_iff_complete, eq_discovered_of_discover
-/

namespace EnvLayers.Graph

variable {g : Graph} {follow : Requirement → Bool}

/-! ### One step of the search -/

theorem discoverFrom_nil (found : List String) : g.discoverFrom follow found [] = .ok found := by
  rw [discoverFrom]

theorem discoverFrom_cons_of_mem {found pending : List String} {id : String} (h : id ∈ found) :
    g.discoverFrom follow found (id :: pending) = g.discoverFrom follow found pending := by
  rw [discoverFrom, dif_pos h]

theorem discoverFrom_cons_of_missing {found pending : List String} {id : String} (h : id ∉ found)
    (hmissing : id ∉ g.ids) :
    g.discoverFrom follow found (id :: pending) = .error (g.unknown id) := by
  have hnode := node?_eq_none_iff.mpr hmissing
  rw [discoverFrom, dif_neg h]
  split
  · rfl
  · next n hn =>
      rw [hnode] at hn
      cases hn

theorem discoverFrom_cons_of_declared {found pending : List String} {id : String} (h : id ∉ found)
    (hdeclared : id ∈ g.ids) :
    g.discoverFrom follow found (id :: pending)
      = g.discoverFrom follow (found ++ [id]) (pending ++ g.targets follow id) := by
  rcases mem_ids_iff.mp hdeclared with ⟨n, hnode⟩
  rw [discoverFrom, dif_neg h, targets_of_node? hnode]
  split
  · next hnone =>
      rw [hnode] at hnone
      cases hnone
  · next m hm =>
      rw [hnode] at hm
      cases hm
      rfl

/-! ### One level of the search

What stands at the head of the queue can be searched as a whole: its new ids are found in order, and
their targets join the queue behind the rest of it. -/

theorem discoverFrom_level {found level : List String}
    (h : ∀ id ∈ newTo found level, id ∈ g.ids) (follow : Requirement → Bool)
    (pending : List String) :
    g.discoverFrom follow found (level ++ pending)
      = g.discoverFrom follow (found ++ newTo found level)
          (pending ++ (newTo found level).flatMap (g.targets follow)) := by
  induction level generalizing found pending with
  | nil =>
      simp
  | cons id level ih =>
      by_cases hid : id ∈ found
      · rw [newTo_cons_of_mem hid] at h ⊢
        rw [List.cons_append, discoverFrom_cons_of_mem hid, ih h]
      · rw [newTo_cons_of_not_mem hid] at h ⊢
        rw [List.cons_append, discoverFrom_cons_of_declared hid (h id List.mem_cons_self),
          List.append_assoc, ih fun x hx => h x (List.mem_cons_of_mem _ hx)]
        simp

/-- A level with an id that is not declared ends the search at the first such id. -/
theorem discoverFrom_level_missing {found level : List String} {id : String}
    (h : (newTo found level).find? (· ∉ g.ids) = some id) (follow : Requirement → Bool)
    (pending : List String) :
    g.discoverFrom follow found (level ++ pending) = .error (g.unknown id) := by
  induction level generalizing found pending with
  | nil =>
      simp at h
  | cons x level ih =>
      by_cases hx : x ∈ found
      · rw [newTo_cons_of_mem hx] at h
        rw [List.cons_append, discoverFrom_cons_of_mem hx, ih h]
      · rw [newTo_cons_of_not_mem hx, List.find?_cons] at h
        by_cases hdeclared : x ∈ g.ids
        · simp only [hdeclared, not_true_eq_false, decide_false] at h
          rw [List.cons_append, discoverFrom_cons_of_declared hx hdeclared, List.append_assoc, ih h]
        · simp only [hdeclared, not_false_eq_true, decide_true, Option.some.injEq] at h
          subst h
          rw [List.cons_append, discoverFrom_cons_of_missing hx hdeclared]

/-! ### The whole search -/

variable {roots : List String}

theorem discovered_succ (g : Graph) (follow : Requirement → Bool) (roots : List String) (k : Nat) :
    g.discovered follow roots (k + 1) = g.discovered follow roots k
      ++ newTo (g.discovered follow roots k) (g.walkEnds follow roots k) := by
  have hsame : newTo ((List.range k).flatMap (g.walkEnds follow roots)) (g.walkEnds follow roots k)
      = newTo (g.discovered follow roots k) (g.walkEnds follow roots k) :=
    newTo_congr (fun _ => List.mem_eraseDups.symm) _
  rw [← hsame, discovered, List.range_succ, List.flatMap_append, List.flatMap_singleton,
    eraseDups_append_newTo, discovered]

/-- After as many levels as are complete, the search has found what breadth-first order puts first,
and nothing is new in its queue that is not new among the ends of the next walks. -/
theorem discover_eq_discoverFrom_discovered {k : Nat}
    (h : ∀ id ∈ g.discovered follow roots k, id ∈ g.ids) :
    ∃ pending, g.discover follow roots
        = g.discoverFrom follow (g.discovered follow roots k) pending
      ∧ newTo (g.discovered follow roots k) pending
        = newTo (g.discovered follow roots k) (g.walkEnds follow roots k) := by
  induction k with
  | zero =>
      exact ⟨roots, rfl, rfl⟩
  | succ k ih =>
      have hgrown := discovered_succ g follow roots k
      rw [hgrown] at h
      rcases ih fun id hid => h id (List.mem_append_left _ hid) with ⟨pending, hsearch, hnew⟩
      refine ⟨(newTo (g.discovered follow roots k) pending).flatMap (g.targets follow), ?_, ?_⟩
      · have hdeclared : ∀ id ∈ newTo (g.discovered follow roots k) pending, id ∈ g.ids :=
          fun id hid => h id (List.mem_append_right _ (hnew ▸ hid))
        have hlevel := discoverFrom_level hdeclared follow []
        rw [List.append_nil, List.nil_append] at hlevel
        rw [hsearch, hlevel, hnew, ← hgrown]
      · have hclosed : ∀ id ∈ g.discovered follow roots k,
            g.targets follow id ⊆ g.discovered follow roots (k + 1) := by
          intro id hid v hv
          rcases mem_discovered.mp hid with ⟨j, hj, hmem⟩
          exact mem_discovered.mpr ⟨j + 1, by omega, List.mem_flatMap.mpr ⟨id, hmem, hv⟩⟩
        rw [hnew, newTo_flatMap_newTo hclosed]
        rfl

/-- The search fails at the first id that is missing in breadth-first order. -/
theorem discover_firstMissing {id : String} (h : g.FirstMissing follow roots id) :
    g.discover follow roots = .error (g.unknown id) := by
  rcases h with ⟨k, hk⟩
  induction k with
  | zero =>
      simp [discovered] at hk
  | succ k ih =>
      rw [discovered_succ, List.find?_append] at hk
      cases hbefore : (g.discovered follow roots k).find? (· ∉ g.ids) with
      | some first =>
          rw [hbefore, Option.some_or] at hk
          exact ih (hbefore.trans hk)
      | none =>
          rw [hbefore, Option.none_or] at hk
          have hdeclared : ∀ x ∈ g.discovered follow roots k, x ∈ g.ids := by
            simpa using hbefore
          rcases discover_eq_discoverFrom_discovered hdeclared with ⟨pending, hsearch, hnew⟩
          have hmissing := discoverFrom_level_missing (hnew ▸ hk) follow []
          rw [List.append_nil] at hmissing
          rw [hsearch, hmissing]

/-- What a search that came to its end has done: it kept what was found, met everything in its
queue, and whatever is new was reached from there, is declared, and has its targets met as well. -/
structure Searched (g : Graph) (follow : Requirement → Bool) (found pending result : List String) :
    Prop where
  keeps : found ⊆ result
  meets : pending ⊆ result
  nodup : found.Nodup → result.Nodup
  new : ∀ id ∈ result, id ∈ found ∨
    g.Reaches follow pending id ∧ id ∈ g.ids ∧ g.targets follow id ⊆ result

/-- Meeting an id that was found before changes nothing. -/
theorem Searched.cons_of_mem {found pending result : List String} {id : String} (hid : id ∈ found)
    (h : Searched g follow found pending result) :
    Searched g follow found (id :: pending) result where
  keeps := h.keeps
  meets := List.cons_subset.mpr ⟨h.keeps hid, h.meets⟩
  nodup := h.nodup
  new x hx := (h.new x hx).imp_right fun ⟨hreach, hrest⟩ => ⟨hreach.cons, hrest⟩

/-- Meeting a new id that is declared. -/
theorem Searched.cons_of_declared {found pending result : List String} {id : String}
    (hnew : id ∉ found) (hdeclared : id ∈ g.ids)
    (h : Searched g follow (found ++ [id]) (pending ++ g.targets follow id) result) :
    Searched g follow found (id :: pending) result where
  keeps := (List.append_subset.mp h.keeps).1
  meets := List.cons_subset.mpr
    ⟨h.keeps (List.mem_append_right _ List.mem_cons_self), (List.append_subset.mp h.meets).1⟩
  nodup hfound := by
    refine h.nodup (List.nodup_append.mpr ⟨hfound, by simp, ?_⟩)
    rintro x hx y hy rfl
    exact hnew (List.mem_singleton.mp hy ▸ hx)
  new x hx := by
    rcases h.new x hx with hold | ⟨hreach, hrest⟩
    · rcases List.mem_append.mp hold with hold | hold
      · exact .inl hold
      · rw [List.mem_singleton.mp hold]
        exact .inr ⟨.root List.mem_cons_self, hdeclared, (List.append_subset.mp h.meets).2⟩
    · exact .inr ⟨hreach.of_append_targets, hrest⟩

theorem searched_of_discoverFrom {found pending result : List String}
    (h : g.discoverFrom follow found pending = .ok result) :
    Searched g follow found pending result := by
  induction found, pending using discoverFrom.induct g follow with
  | case1 found =>
      rw [discoverFrom_nil, Except.ok.injEq] at h
      subst h
      exact ⟨fun _ hx => hx, List.nil_subset _, fun hfound => hfound, fun _ hx => .inl hx⟩
  | case2 found id pending hid ih =>
      rw [discoverFrom_cons_of_mem hid] at h
      exact (ih h).cons_of_mem hid
  | case3 found id pending hid hnone =>
      rw [discoverFrom_cons_of_missing hid (node?_eq_none_iff.mp hnone)] at h
      cases h
  | case4 found id pending hid n hn ih =>
      have hdeclared := mem_ids_of_node? hn
      rw [discoverFrom_cons_of_declared hid hdeclared] at h
      rw [← targets_of_node? hn] at ih
      exact (ih h).cons_of_declared hid hdeclared

/-- A search that fails has met an id that is not declared. -/
theorem reaches_missing_of_discoverFrom {found pending : List String} {failure : Failure}
    (h : g.discoverFrom follow found pending = .error failure) :
    ∃ id, g.Reaches follow pending id ∧ id ∉ g.ids := by
  induction found, pending using discoverFrom.induct g follow with
  | case1 found =>
      rw [discoverFrom_nil] at h
      cases h
  | case2 found id pending hid ih =>
      rw [discoverFrom_cons_of_mem hid] at h
      rcases ih h with ⟨x, hx, hmissing⟩
      exact ⟨x, hx.cons, hmissing⟩
  | case3 found id pending hid hnone =>
      exact ⟨id, .root List.mem_cons_self, node?_eq_none_iff.mp hnone⟩
  | case4 found id pending hid n hn ih =>
      rw [discoverFrom_cons_of_declared hid (mem_ids_of_node? hn)] at h
      rw [← targets_of_node? hn] at ih
      rcases ih h with ⟨x, hx, hmissing⟩
      exact ⟨x, hx.of_append_targets, hmissing⟩

/-- A search that succeeds has found what the roots lead to, each id once, and all of it is
declared. -/
theorem discover_ok_spec {found : List String} (h : g.discover follow roots = .ok found) :
    found.Nodup ∧ (∀ id, id ∈ found ↔ g.Reaches follow roots id) ∧ g.Complete follow roots := by
  have hsearched := searched_of_discoverFrom h
  have hnew : ∀ id ∈ found,
      g.Reaches follow roots id ∧ id ∈ g.ids ∧ g.targets follow id ⊆ found :=
    fun id hid => (hsearched.new id hid).resolve_left List.not_mem_nil
  have hmet : ∀ id, g.Reaches follow roots id → id ∈ found := by
    intro id hid
    induction hid with
    | root hroot =>
        exact hsearched.meets hroot
    | step _ huv ih =>
        exact (hnew _ ih).2.2 (mem_targets_iff.mpr huv)
  exact ⟨hsearched.nodup List.nodup_nil, fun id => ⟨fun hid => (hnew id hid).1, hmet id⟩,
    fun id hid => (hnew id (hmet id hid)).2.1⟩

/-- The search succeeds exactly when everything that the roots lead to is declared. -/
theorem exists_discover_iff_complete :
    (∃ found, g.discover follow roots = .ok found) ↔ g.Complete follow roots := by
  constructor
  · rintro ⟨found, h⟩
    exact (discover_ok_spec h).2.2
  · intro hcomplete
    cases h : g.discover follow roots with
    | ok found =>
        exact ⟨found, rfl⟩
    | error failure =>
        rcases reaches_missing_of_discoverFrom h with ⟨id, hid, hmissing⟩
        exact absurd (hcomplete id hid) hmissing

/-! ### What is found, in breadth-first order -/

/-- Finitely many ids that the roots lead to are all within some number of steps. -/
theorem exists_subset_discovered {ids : List String} (h : ∀ id ∈ ids, g.Reaches follow roots id) :
    ∃ k, ids ⊆ g.discovered follow roots k := by
  induction ids with
  | nil =>
      exact ⟨0, List.nil_subset _⟩
  | cons id ids ih =>
      rcases ih fun x hx => h x (List.mem_cons_of_mem _ hx) with ⟨k, hk⟩
      rcases reaches_iff_mem_walkEnds.mp (h id List.mem_cons_self) with ⟨j, hj⟩
      refine ⟨max k (j + 1), List.cons_subset.mpr ⟨?_, fun x hx => ?_⟩⟩
      · exact mem_discovered.mpr ⟨j, by omega, hj⟩
      · rcases mem_discovered.mp (hk hx) with ⟨i, hi, hmem⟩
        exact mem_discovered.mpr ⟨i, by omega, hmem⟩

/-- A search that succeeds finds the ids in breadth-first order. -/
theorem eq_discovered_of_discover {found : List String} {k : Nat}
    (h : g.discover follow roots = .ok found) (hk : found ⊆ g.discovered follow roots k) :
    found = g.discovered follow roots k := by
  rcases discover_ok_spec h with ⟨_, hmem, hcomplete⟩
  have hreached : ∀ j, ∀ id ∈ g.walkEnds follow roots j, g.Reaches follow roots id :=
    fun j _ hid => reaches_iff_mem_walkEnds.mpr ⟨j, hid⟩
  have hdeclared : ∀ id ∈ g.discovered follow roots k, id ∈ g.ids := by
    intro id hid
    rcases mem_discovered.mp hid with ⟨j, _, hj⟩
    exact hcomplete id (hreached j id hj)
  rcases discover_eq_discoverFrom_discovered hdeclared with ⟨pending, hsearch, hnew⟩
  rw [newTo_eq_nil_of_subset fun id hid => hk ((hmem id).mpr (hreached k id hid))] at hnew
  have hnone : ∀ id ∈ newTo (g.discovered follow roots k) pending, id ∈ g.ids := by
    simp [hnew]
  have hlevel := discoverFrom_level hnone follow []
  rw [List.append_nil, hnew, List.append_nil, List.flatMap_nil, List.nil_append,
    discoverFrom_nil] at hlevel
  rw [hsearch, hlevel] at h
  exact (Except.ok.inj h).symm

end EnvLayers.Graph
