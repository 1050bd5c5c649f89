import EnvLayers.Proofs.Graph.Ties

/-
Module: EnvLayers.Proofs.Graph.Counting
Purpose: An emission at every moment, between two edges of one id as well. The counter of an id then
  tells the followed requirements on it that still hold it back: those of ids that are not emitted,
  and those of the last one emitted that are not taken away. So a counter is lowered only when it is
  not zero, and an id becomes ready once, when its counter is zero, and is emitted once.
Main exports: Emission.Moment, Emission.Step, Emission.steps_run, Emission.Ongoing, Ongoing.steps,
  Graph.requirementsOn, Graph.Counted, Graph.Changes, emission_counted
-/

namespace EnvLayers.Graph

namespace Emission

/-! ### Moments of an emission -/

/-- A moment of an emission: how far it has come, and the targets of the id emitted last to which
the edges are not taken away yet. -/
structure Moment where
  state : Emission
  left : List String

/-- What an emission does next. Where edges are left it takes the first one away, and otherwise it
emits the first ready id and has the edges of that one to take away. -/
inductive Step (targets : String → List String) : Moment → Moment → Prop where
  | emit {s : Emission} {id : String} {rest : List String} : s.queue = id :: rest →
      Step targets ⟨s, []⟩ ⟨{ s with order := s.order ++ [id], queue := rest }, targets id⟩
  | release {s : Emission} {t : String} {left : List String} :
      Step targets ⟨s, t :: left⟩ ⟨s.release t, left⟩

variable {targets : String → List String} {closure : List String} {m m' : Moment}

theorem rightUnique_step : Relator.RightUnique (Step targets) := by
  intro m m₁ m₂ h₁ h₂
  cases h₁ with
  | emit hqueue =>
      cases h₂ with
      | emit hqueue' =>
          rw [hqueue] at hqueue'
          cases hqueue'
          rfl
  | release =>
      cases h₂
      rfl

theorem steps_releaseAll (s : Emission) (left : List String) :
    Relation.ReflTransGen (Step targets) ⟨s, left⟩ ⟨left.foldl Emission.release s, []⟩ := by
  induction left generalizing s with
  | nil =>
      exact .refl
  | cons t left ih =>
      exact .head .release (ih (s.release t))

/-- A run is made of these steps. -/
theorem steps_run (s : Emission) :
    Relation.ReflTransGen (Step targets) ⟨s, []⟩ ⟨s.run targets, []⟩ := by
  induction s using Emission.run.induct targets with
  | case1 s hqueue =>
      rw [run_of_nil hqueue]
  | case2 s id rest hqueue ih =>
      rw [run_of_cons hqueue]
      exact .head (.emit hqueue) ((steps_releaseAll _ (targets id)).trans ih)

theorem not_step_of_queue_eq_nil {s : Emission} (h : s.queue = []) :
    ¬ Step targets ⟨s, []⟩ m := by
  intro hstep
  cases hstep with
  | emit hqueue =>
      rw [h] at hqueue
      cases hqueue

/-- The steps of an emission lead nowhere but to the end of its run. -/
theorem steps_end {s : Emission} (hend : (s.run targets).queue = [])
    (h : Relation.ReflTransGen (Step targets) ⟨s, []⟩ m) :
    Relation.ReflTransGen (Step targets) m ⟨s.run targets, []⟩ := by
  -- No step has a choice, so the moment lies before the end or behind it, where nothing follows.
  rcases Relation.ReflTransGen.total_of_right_unique rightUnique_step h (steps_run s) with
    hbefore | hbehind
  · exact hbefore
  · rcases hbehind.cases_head with heq | ⟨next, hstep, -⟩
    · rw [heq]
    · exact absurd hstep (not_step_of_queue_eq_nil hend)

/-! ### What every step keeps -/

/-- What holds at every moment of an emission: its invariant for the edges that are left, and these
are the last ones of the id emitted last. -/
structure Ongoing (targets : String → List String) (closure : List String) (m : Moment) : Prop
    extends Invariant targets closure m.state m.left where
  left_suffix : m.left ≠ [] → ∃ id, m.state.order.getLast? = some id ∧ m.left <:+ targets id

theorem Ongoing.step (hnodup : closure.Nodup) (h : Ongoing targets closure m)
    (hstep : Step targets m m') : Ongoing targets closure m' := by
  cases hstep with
  | @emit s id rest hqueue =>
      exact ⟨h.emit hnodup hqueue, fun _ => ⟨id, List.getLast?_concat, List.suffix_rfl⟩⟩
  | @release s t left =>
      refine ⟨h.release, fun _ => ?_⟩
      obtain ⟨id, hlast, hsuffix⟩ := h.left_suffix (List.cons_ne_nil t left)
      exact ⟨id, by rw [order_release, hlast], (List.suffix_cons t left).trans hsuffix⟩

theorem Ongoing.steps (hnodup : closure.Nodup) (h : Ongoing targets closure m)
    (hsteps : Relation.ReflTransGen (Step targets) m m') : Ongoing targets closure m' := by
  induction hsteps with
  | refl =>
      exact h
  | tail _ hstep ih =>
      exact ih.step hnodup hstep

/-- The edges that are left stay within the closure when its targets do. -/
theorem Ongoing.left_subset (h : Ongoing targets closure m)
    (hclosed : ∀ u ∈ closure, targets u ⊆ closure) : m.left ⊆ closure := by
  by_cases hleft : m.left = []
  · rw [hleft]
    exact List.nil_subset _
  · obtain ⟨id, hlast, hsuffix⟩ := h.left_suffix hleft
    exact fun t ht => hclosed id (h.order_subset (List.mem_of_getLast? hlast)) (hsuffix.subset ht)

/-- An id that was ever ready has nothing left on its counter. -/
theorem Invariant.lookup_eq_zero {s : Emission} {left : List String} {id : String}
    (h : Invariant targets closure s left) (hid : id ∈ s.order ++ s.queue) :
    id ∈ closure ∧ s.counters.lookup id = some 0 := by
  have hqueued := (h.mem_queued id).mpr hid
  have hclosure := h.within id hqueued
  rw [h.lookup_eq hclosure, (h.ready id hclosure).mp hqueued]
  exact ⟨hclosure, rfl⟩

theorem Invariant.length_order_le {s : Emission} {left : List String}
    (h : Invariant targets closure s left) : s.order.length ≤ closure.length :=
  (List.nodup_append.mp h.nodup).1.length_le_of_subset h.order_subset

end Emission

open Emission

variable {g : Graph} {follow : Requirement → Bool} {roots found : List String} {m m' : Moment}

/-! ### Requirements -/

/-- How many followed requirements the packages under some ids have on an id, repeated ones
counted. -/
def requirementsOn (g : Graph) (follow : Requirement → Bool) (ids : List String) (id : String) :
    Nat :=
  (ids.flatMap g.requirementsUnder).countP fun r => follow r && r.node == id

theorem inDegree_eq_requirementsOn (g : Graph) (follow : Requirement → Bool) (ids : List String)
    (id : String) :
    inDegree (g.targets follow) ids id = g.requirementsOn follow ids id := by
  have htargets : ids.flatMap (g.targets follow)
      = ((ids.flatMap g.requirementsUnder).filter follow).map (·.node) := by
    rw [List.filter_flatMap, List.map_flatMap]
    exact List.flatMap_congr fun u _ => targets_eq g follow u
  rw [inDegree, htargets, List.count, List.countP_map, List.countP_filter, requirementsOn]
  refine List.countP_congr fun r _ => ?_
  simp only [Function.comp, Bool.and_comm]

/-! ### The emission of a closure at every moment -/

/-- What holds at a moment of the emission of a closure. The counter of each of its ids tells the
followed requirements on it of the ids that are not emitted, and those among the ones left; the ids
that were ever ready are distinct ids of the closure with nothing left on their counters; and there
were no more rounds than the closure has ids. -/
structure Counted (g : Graph) (follow : Requirement → Bool) (found : List String) (m : Moment) :
    Prop where
  lookup_eq : ∀ id ∈ found, m.state.counters.lookup id
    = some (g.requirementsOn follow (found.filter (· ∉ m.state.order)) id + m.left.count id)
  left_suffix : m.left ≠ [] →
    ∃ id, m.state.order.getLast? = some id ∧ m.left <:+ g.targets follow id
  nodup : (m.state.order ++ m.state.queue).Nodup
  ready : ∀ id ∈ m.state.order ++ m.state.queue, id ∈ found ∧ m.state.counters.lookup id = some 0
  length_le : m.state.order.length ≤ found.length

/-- How one moment of the emission of a closure differs from the next. A round begins with an id of
the closure that had none before. An edge that is taken away lowers a counter that is not zero, and
its target, which was never ready, becomes ready exactly when the counter comes to zero. -/
inductive Changes (found : List String) : Moment → Moment → Prop where
  | round {s : Emission} {id : String} {rest left : List String} : s.queue = id :: rest →
      id ∈ found → id ∉ s.order →
      Changes found ⟨s, []⟩ ⟨{ s with order := s.order ++ [id], queue := rest }, left⟩
  | lowered {s s' : Emission} {t : String} {left : List String} {n : Nat} :
      s.counters.lookup t = some (n + 1) → s'.counters.lookup t = some n →
      t ∉ s.order ++ s.queue → s'.order = s.order →
      s'.queue = s.queue ++ (if n = 0 then [t] else []) → Changes found ⟨s, t :: left⟩ ⟨s', left⟩

theorem counted_of_ongoing (h : Ongoing (g.targets follow) found m) : g.Counted follow found m where
  lookup_eq id hid := by
    rw [h.lookup_eq hid, held, inDegree_eq_requirementsOn]
  left_suffix := h.left_suffix
  nodup := h.nodup
  ready _ hid := h.lookup_eq_zero hid
  length_le := h.length_order_le

theorem changes_of_step (h : Ongoing (g.targets follow) found m) (hleft : m.left ⊆ found)
    (hstep : Step (g.targets follow) m m') : Changes found m m' := by
  cases hstep with
  | emit hqueue =>
      obtain ⟨hid, hnew, -⟩ := h.next hqueue
      exact .round hqueue hid hnew
  | @release s t left =>
      have ht : t ∈ found := hleft List.mem_cons_self
      obtain ⟨horder, hqueue⟩ := h.order_queue_release ht
      -- The edge that is taken away is still counted before, so the counter is not zero.
      have hbefore := h.lookup_eq ht
      rw [held_cons, if_pos rfl] at hbefore
      have hafter := h.release.lookup_eq ht
      rw [horder] at hafter
      refine .lowered hbefore hafter ?_ horder ?_
      · rw [← h.mem_queued]
        exact h.not_mem_queued ht
      · rw [hqueue, List.filter_singleton]
        simp only [Bool.cond_decide]

/-- The counters of an emission are exact at every moment, between the edges of an id as well, and
every step keeps within what they say: none of them is lowered below zero, each id becomes ready at
most once and only at zero, and each has at most one round. All these moments lie on the run that
puts a closure in order, which comes to its end. -/
theorem emission_counted (h : g.discover follow roots = .ok found)
    (hm : Relation.ReflTransGen (Step (g.targets follow))
      ⟨startEmission (g.targets follow) found roots, []⟩ m) :
    g.Counted follow found m
      ∧ (∀ m', Step (g.targets follow) m m' → Changes found m m')
      ∧ Relation.ReflTransGen (Step (g.targets follow)) m ⟨g.emitted follow roots found, []⟩
      ∧ ∀ m', ¬ Step (g.targets follow) ⟨g.emitted follow roots found, []⟩ m' := by
  obtain ⟨hnodup, -, -⟩ := discover_ok_spec h
  obtain ⟨-, hend⟩ := invariant_emitted h
  have hstart : Ongoing (g.targets follow) found
      ⟨startEmission (g.targets follow) found roots, []⟩ :=
    ⟨invariant_start_of_discover h, fun hne => absurd rfl hne⟩
  have hongoing := hstart.steps hnodup hm
  have hleft := hongoing.left_subset fun _ hu => targets_subset_of_discover h hu
  exact ⟨counted_of_ongoing hongoing, fun m' hstep => changes_of_step hongoing hleft hstep,
    steps_end hend hm, fun m' => not_step_of_queue_eq_nil hend⟩

/-- A program that names a library twice, and an id that requires itself. -/
def entangled : Graph where
  nodes := [
    { Node.ofName "app" with
      requirements := [⟨"x", .requires, true⟩, ⟨"x", .requires, true⟩, ⟨"y", .requires, true⟩] },
    { Node.ofName "x" with requirements := [⟨"y", .requires, true⟩] },
    { Node.ofName "y" with requirements := [⟨"y", .requires, true⟩] }]
  ids_nodup := by decide

/-- The emission of `entangled` when one of the two edges to the library is taken away. -/
def halfway : Moment := ⟨⟨["app"], [], ["app"], [("x", 1), ("app", 0), ("y", 3)]⟩, ["x", "y"]⟩

/-- The library is named by the roots as well, and waits for the second edge to it. -/
theorem emission_counted_entangled :
    entangled.discover (fun _ => true) ["x", "app", "app"] = .ok ["x", "app", "y"]
      ∧ Relation.ReflTransGen (Step (entangled.targets fun _ => true))
          ⟨startEmission (entangled.targets fun _ => true) ["x", "app", "y"] ["x", "app", "app"],
            []⟩ halfway
      ∧ entangled.Counted (fun _ => true) ["x", "app", "y"] halfway
      ∧ Changes ["x", "app", "y"] halfway ⟨halfway.state.release "x", ["y"]⟩
      ∧ Relation.ReflTransGen (Step (entangled.targets fun _ => true)) halfway
          ⟨entangled.emitted (fun _ => true) ["x", "app", "app"] ["x", "app", "y"], []⟩ := by
  have hfound : entangled.discover (fun _ => true) ["x", "app", "app"]
      = .ok ["x", "app", "y"] := by
    cbv
  have hstart : startEmission (entangled.targets fun _ => true) ["x", "app", "y"]
      ["x", "app", "app"] = ⟨[], ["app"], ["app"], [("x", 2), ("app", 0), ("y", 3)]⟩ := by
    cbv
  have hround : Step (entangled.targets fun _ => true)
      ⟨⟨[], ["app"], ["app"], [("x", 2), ("app", 0), ("y", 3)]⟩, []⟩
      ⟨⟨["app"], [], ["app"], [("x", 2), ("app", 0), ("y", 3)]⟩, ["x", "x", "y"]⟩ :=
    .emit rfl
  have hlowered : Step (entangled.targets fun _ => true)
      ⟨⟨["app"], [], ["app"], [("x", 2), ("app", 0), ("y", 3)]⟩, ["x", "x", "y"]⟩ halfway :=
    .release
  have hsteps : Relation.ReflTransGen (Step (entangled.targets fun _ => true))
      ⟨startEmission (entangled.targets fun _ => true) ["x", "app", "y"] ["x", "app", "app"], []⟩
      halfway := by
    rw [hstart]
    exact .tail (.single hround) hlowered
  obtain ⟨hcounted, hchanges, hend, -⟩ := emission_counted hfound hsteps
  exact ⟨hfound, hsteps, hcounted, hchanges _ .release, hend⟩

end EnvLayers.Graph
