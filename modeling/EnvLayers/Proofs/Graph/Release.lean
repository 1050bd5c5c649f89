import EnvLayers.Proofs.FirstSeen
import EnvLayers.Proofs.Graph.Emission
import EnvLayers.Proofs.LastSeen

/-
Module: EnvLayers.Proofs.Graph.Release
Purpose: The order in which an emission makes ids ready: first the roots that nothing leads to, each
  where it stands first among the roots, and then every other id at the last of the edges that lead
  to it. Where nothing leads back to itself, only one order of the same ids is like that.
Main exports: Emission.ReadyInOrder, ReadyInOrder.release, ReadyInOrder.run, freeRoots,
  order_run_startEmission, order_unique
-/

namespace EnvLayers.Graph

variable {targets : String → List String} {closure start : List String}

namespace Emission

/-! ### One edge taken away -/

/-- The ids that were ever ready stand in the order in which the edges taken away, `gone`, made them
ready, behind those that were ready from the start. -/
def ReadyInOrder (targets : String → List String) (closure start gone left : List String)
    (s : Emission) : Prop :=
  s.order ++ s.queue
    = start ++ gone.dedup.filter fun id => held targets closure s.order left id = 0

theorem enqueue_queue_of_not_mem {s : Emission} {id : String} (h : id ∉ s.queued) :
    (s.enqueue id).queue = s.queue ++ [id] := by
  rw [enqueue, if_neg h]

/-- An edge taken away puts its target at the end of the queue when it was the last one. -/
theorem Invariant.order_queue_release {s : Emission} {t : String} {left : List String}
    (h : Invariant targets closure s (t :: left)) (ht : t ∈ closure) :
    (s.release t).order = s.order
      ∧ (s.release t).queue
        = s.queue ++ [t].filter fun id => held targets closure s.order left id = 0 := by
  rw [h.release_eq ht]
  split
  · next hzero =>
      refine ⟨enqueue_order _ _, ?_⟩
      rw [List.filter_cons_of_pos (by simpa using hzero), List.filter_nil]
      exact enqueue_queue_of_not_mem (h.not_mem_queued ht)
  · next hnonzero =>
      simp [hnonzero]

/-- What the edges before have made ready stays as it is. -/
theorem filter_held_concat (order gone left : List String) (t : String) :
    (gone ++ [t]).dedup.filter (fun id => held targets closure order left id = 0)
      = gone.dedup.filter (fun id => held targets closure order (t :: left) id = 0)
        ++ [t].filter fun id => held targets closure order left id = 0 := by
  rw [dedup_concat, List.filter_append, List.filter_filter]
  congr 1
  refine List.filter_congr fun id _ => ?_
  by_cases hid : id = t
  · simp [hid, held_cons]
  · simp [hid, held_cons_of_ne hid]

theorem ReadyInOrder.release {s : Emission} {t : String} {gone left : List String}
    (hready : s.ReadyInOrder targets closure start gone (t :: left))
    (h : Invariant targets closure s (t :: left)) (ht : t ∈ closure) :
    (s.release t).ReadyInOrder targets closure start (gone ++ [t]) left := by
  obtain ⟨horder, hqueue⟩ := h.order_queue_release ht
  unfold ReadyInOrder at hready ⊢
  rw [horder, hqueue, ← List.append_assoc, hready, List.append_assoc, filter_held_concat]

theorem ReadyInOrder.releaseAll {s : Emission} {gone left : List String}
    (hready : s.ReadyInOrder targets closure start gone left)
    (h : Invariant targets closure s left) (hleft : left ⊆ closure) :
    (left.foldl Emission.release s).ReadyInOrder targets closure start (gone ++ left) [] := by
  induction left generalizing s gone with
  | nil =>
      rwa [List.append_nil]
  | cons t left ih =>
      obtain ⟨ht, hrest⟩ := List.cons_subset.mp hleft
      have hnext := ih (hready.release h ht) h.release hrest
      rwa [List.append_assoc, List.singleton_append] at hnext

/-! ### A run -/

/-- Emitting an id takes away the edges that leave it. -/
theorem ReadyInOrder.advance {s : Emission} {id : String} {rest : List String}
    (hready : s.ReadyInOrder targets closure start (s.order.flatMap targets) [])
    (h : Invariant targets closure s []) (hnodup : closure.Nodup) (hqueue : s.queue = id :: rest)
    (hclosed : ∀ u ∈ closure, targets u ⊆ closure) :
    (Emission.advance targets id rest s).ReadyInOrder targets closure start
      ((s.order ++ [id]).flatMap targets) [] := by
  obtain ⟨hid, hnew, -⟩ := h.next hqueue
  rw [List.flatMap_append, List.flatMap_singleton]
  refine ReadyInOrder.releaseAll ?_ (h.emit hnodup hqueue) (hclosed id hid)
  unfold ReadyInOrder at hready ⊢
  simp only [held_emit hnodup hid hnew]
  rw [← hready, hqueue, List.append_assoc, List.singleton_append]

theorem order_release (s : Emission) (t : String) : (s.release t).order = s.order := by
  unfold Emission.release
  split
  · rfl
  · dsimp only
    split
    · exact enqueue_order _ _
    · rfl

theorem order_advance (id : String) (rest : List String) (s : Emission) :
    (Emission.advance targets id rest s).order = s.order ++ [id] := by
  have hkeeps : ∀ (ts : List String) (s : Emission),
      (ts.foldl Emission.release s).order = s.order := by
    intro ts
    induction ts with
    | nil =>
        exact fun _ => rfl
    | cons t ts ih =>
        exact fun s => (ih _).trans (order_release s t)
  exact hkeeps _ _

theorem ReadyInOrder.run {s : Emission}
    (hready : s.ReadyInOrder targets closure start (s.order.flatMap targets) [])
    (h : Invariant targets closure s []) (hnodup : closure.Nodup)
    (hclosed : ∀ u ∈ closure, targets u ⊆ closure) :
    (s.run targets).ReadyInOrder targets closure start ((s.run targets).order.flatMap targets)
      [] := by
  induction s using Emission.run.induct targets with
  | case1 s hqueue =>
      rwa [run_of_nil hqueue]
  | case2 s id rest hqueue ih =>
      have hnext := hready.advance h hnodup hqueue hclosed
      rw [← order_advance id rest s] at hnext
      rw [run_of_cons hqueue]
      exact ih hnext (h.advance hnodup hqueue)

end Emission

open Emission

/-! ### The start -/

/-- The roots that no edge of a closure leads to, each where it stands first. -/
def freeRoots (targets : String → List String) (closure roots : List String) : List String :=
  (roots.filter (· ∉ closure.flatMap targets)).eraseDups

theorem mem_freeRoots {roots : List String} {id : String} :
    id ∈ freeRoots targets closure roots ↔ id ∈ roots ∧ id ∉ closure.flatMap targets := by
  rw [freeRoots, List.mem_eraseDups, List.mem_filter, decide_eq_true_eq]

theorem queue_foldl_enqueue (ids : List String) (s : Emission) :
    (ids.foldl enqueue s).queue = s.queue ++ newTo s.queued ids := by
  induction ids generalizing s with
  | nil =>
      simp
  | cons id ids ih =>
      rw [List.foldl_cons, ih]
      by_cases hid : id ∈ s.queued
      · rw [newTo_cons_of_mem hid, enqueue, if_pos hid]
      · have hqueued : newTo (id :: s.queued) ids = newTo (s.queued ++ [id]) ids :=
          newTo_congr (fun x => by simp [or_comm]) ids
        rw [newTo_cons_of_not_mem hid, enqueue, if_neg hid]
        simp [hqueued]

theorem order_startEmission (targets : String → List String) (closure roots : List String) :
    (startEmission targets closure roots).order = [] := by
  have hempty : Queueing ⟨[], [], [], closure.map fun id => (id, inDegree targets closure id)⟩ :=
    ⟨by simp, List.nodup_nil⟩
  exact (enqueueAll_spec hempty _).2.1

theorem readyInOrder_startEmission (targets : String → List String) (closure roots : List String) :
    (startEmission targets closure roots).ReadyInOrder targets closure
      (freeRoots targets closure roots)
      ((startEmission targets closure roots).order.flatMap targets) [] := by
  have hfree : roots.filter (inDegree targets closure · == 0)
      = roots.filter (· ∉ closure.flatMap targets) := by
    refine List.filter_congr fun id _ => ?_
    simp only [inDegree, beq_eq_decide, List.count_eq_zero]
  unfold ReadyInOrder
  rw [order_startEmission, startEmission, queue_foldl_enqueue, nil_newTo, hfree, freeRoots]
  simp

/-- A run that emits the whole closure emits the free roots first, and then every other id as the
last edge to it is taken away. -/
theorem order_run_startEmission {roots : List String} (hnodup : closure.Nodup)
    (hclosed : ∀ u ∈ closure, targets u ⊆ closure)
    (h : Invariant targets closure (startEmission targets closure roots) [])
    (hall : closure ⊆ ((startEmission targets closure roots).run targets).order) :
    ((startEmission targets closure roots).run targets).order = freeRoots targets closure roots
      ++ (((startEmission targets closure roots).run targets).order.flatMap targets).dedup := by
  have hready := (readyInOrder_startEmission targets closure roots).run h hnodup hclosed
  unfold ReadyInOrder at hready
  rw [(h.run hnodup).2, List.append_nil] at hready
  -- Nothing is held back any more.
  have hzero : ∀ id,
      held targets closure ((startEmission targets closure roots).run targets).order [] id = 0 := by
    intro id
    rw [held, List.filter_eq_nil_iff.mpr fun id hid => by simpa using hall hid]
    rfl
  simpa only [hzero, decide_true, List.filter_true] using hready

/-! ### Only one order -/

/-- In such an order, what the edges that leave its front have made ready goes further than the
front: otherwise each id behind it would wait for another one there. -/
theorem exists_ready_behind {before rest ready : List String} (hne : rest ≠ [])
    (hacyclic : ∀ id ∈ rest, ¬ Relation.TransGen (fun u v => v ∈ targets u) id id)
    (h : before ++ rest = ready ++ (rest.flatMap targets).dedup) :
    ∃ id ids, ready = before ++ id :: ids := by
  have hwaits : ¬ rest ⊆ (rest.flatMap targets).dedup := by
    intro hsub
    have hback : ∀ id ∈ rest, ∃ u ∈ rest, id ∈ targets u := fun id hid =>
      List.mem_flatMap.mp (List.mem_dedup.mp (hsub hid))
    obtain ⟨id, hid, hcycle⟩ := exists_transGen_self hne hback
    exact hacyclic id hid hcycle
  rcases List.append_eq_append_iff.mp h with ⟨front, hready, hrest⟩ | ⟨behind, -, hall⟩
  · cases front with
    | nil =>
        refine absurd (fun id hid => ?_) hwaits
        rwa [hrest, List.nil_append] at hid
    | cons id ids =>
        exact ⟨id, ids, hready⟩
  · exact absurd (hall ▸ List.subset_append_right behind rest) hwaits

/-- Two such orders with the same front go on alike. -/
theorem rest_unique {before rest rest' : List String} (hnodup : (before ++ rest).Nodup)
    (hnodup' : (before ++ rest').Nodup) (hsame : ∀ id, id ∈ rest' ↔ id ∈ rest)
    (hacyclic : ∀ id ∈ rest, ¬ Relation.TransGen (fun u v => v ∈ targets u) id id)
    (h : before ++ rest = start ++ ((before ++ rest).flatMap targets).dedup)
    (h' : before ++ rest' = start ++ ((before ++ rest').flatMap targets).dedup) :
    rest' = rest := by
  induction rest generalizing before rest' with
  | nil =>
      exact List.eq_nil_iff_forall_not_mem.mpr fun id hid => List.not_mem_nil ((hsame id).mp hid)
  | cons id rest ih =>
      have hready := h
      have hready' := h'
      rw [List.flatMap_append, dedup_append_filter, ← List.append_assoc] at hready hready'
      -- The front makes the same ids ready in both orders, and one of them is the next.
      have hnext : ∀ x, x ∈ rest'.flatMap targets ↔ x ∈ (id :: rest).flatMap targets := by
        intro x
        simp only [List.mem_flatMap, hsame]
      simp only [hnext] at hready'
      obtain ⟨next, ids, hfront⟩ := exists_ready_behind (List.cons_ne_nil _ _) hacyclic hready
      rw [hfront, List.append_assoc, List.append_right_inj, List.cons_append] at hready hready'
      obtain ⟨rfl, -⟩ := List.cons.inj hready
      rw [hready'] at h' hnodup' hsame ⊢
      rw [List.append_cons] at h h' hnodup hnodup'
      refine congrArg (id :: ·) (ih hnodup hnodup' (fun x => ?_)
        (fun x hx => hacyclic x (List.mem_cons_of_mem _ hx)) h h')
      have hx := hsame x
      have hnew := (List.nodup_append.mp hnodup).2.2 id (by simp)
      have hnew' := (List.nodup_append.mp hnodup').2.2 id (by simp)
      by_cases heq : x = id
      · subst heq
        exact iff_of_false (fun hmem => hnew' x hmem rfl) fun hmem => hnew x hmem rfl
      · simpa [heq] using hx

/-- Of the same ids, of which none leads back to itself, there is only one order in which the ids
that are not there from the start stand as the last edges to them do. -/
theorem order_unique {order order' : List String} (hnodup : order.Nodup) (hnodup' : order'.Nodup)
    (hsame : ∀ id, id ∈ order' ↔ id ∈ order)
    (hacyclic : ∀ id ∈ order, ¬ Relation.TransGen (fun u v => v ∈ targets u) id id)
    (h : order = start ++ (order.flatMap targets).dedup)
    (h' : order' = start ++ (order'.flatMap targets).dedup) : order' = order := by
  rw [← List.nil_append order] at hnodup h
  rw [← List.nil_append order'] at hnodup' h'
  exact rest_unique hnodup hnodup' hsame hacyclic h h'

end EnvLayers.Graph
