import EnvLayers.Graph.Closure
import Mathlib.Data.List.Perm.Basic
import Mathlib.Data.Fintype.Card
import Mathlib.Data.Set.Finite.List
import Mathlib.Logic.Relation

/-
Module: EnvLayers.Proofs.Graph.Emission
Purpose: The counters by which a closure is put in order. The counter of an id is the number of
  followed edges that still hold it back, counted with repetition; an id becomes ready when that
  number reaches zero, and only then. One edge taken away, one id emitted and the whole run each
  keep this invariant, and at the end of a run the ids left over hold each other back in a cycle.
Main exports: held, Emission.Queueing, Emission.Invariant, Invariant.release, Invariant.emit,
  Invariant.advance, Invariant.run, Invariant.idxOf_lt, Invariant.exists_cycle,
  invariant_startEmission
-/

namespace EnvLayers.Graph

variable {targets : String → List String} {closure : List String}

/-- The followed edges that hold an id back, repeated ones counted: those that leave the ids of the
closure that are not emitted, and those in `left`, which leave the id that is being emitted and are
not taken away yet. -/
def held (targets : String → List String) (closure order left : List String) (id : String) : Nat :=
  inDegree targets (closure.filter (· ∉ order)) id + left.count id

theorem held_cons (order left : List String) (t id : String) :
    held targets closure order (t :: left) id
      = held targets closure order left id + if t = id then 1 else 0 := by
  simp only [held, List.count_cons, beq_iff_eq, Nat.add_assoc]

theorem held_nil_nil (id : String) :
    held targets closure [] [] id = inDegree targets closure id := by
  simp [held]

/-- Emitting an id turns the edges that leave it into edges that are left to be taken away. -/
theorem held_emit {order : List String} {id : String} (hclosure : closure.Nodup)
    (hid : id ∈ closure) (hnew : id ∉ order) (x : String) :
    held targets closure (order ++ [id]) (targets id) x = held targets closure order [] x := by
  have hperm : (closure.filter (· ∉ order)).Perm (id :: closure.filter (· ∉ order ++ [id])) := by
    refine (List.perm_ext_iff_of_nodup (hclosure.filter _) ?_).mpr fun y => ?_
    · exact List.nodup_cons.mpr ⟨by simp, hclosure.filter _⟩
    · by_cases hy : y = id <;> simp [hy, hid, hnew]
  have hcount := (hperm.flatMap_right targets).count_eq x
  rw [List.flatMap_cons, List.count_append] at hcount
  simp only [held, inDegree, hcount, List.count_nil]
  omega

/-- An id that nothing holds back is no target of an id that is not emitted. -/
theorem mem_order_of_held_eq_zero {order left : List String} {u id : String}
    (h : held targets closure order left id = 0) (hu : u ∈ closure) (hid : id ∈ targets u) :
    u ∈ order := by
  rw [held, inDegree, Nat.add_eq_zero_iff, List.count_eq_zero] at h
  refine Classical.byContradiction fun hnew => h.1 ?_
  exact List.mem_flatMap.mpr ⟨u, List.mem_filter.mpr ⟨hu, by simpa using hnew⟩, hid⟩

/-- An id that something holds back, and nothing of the id being emitted, is a target of an id that
is not emitted. -/
theorem exists_of_held_ne_zero {order : List String} {id : String}
    (h : held targets closure order [] id ≠ 0) :
    ∃ u ∈ closure, u ∉ order ∧ id ∈ targets u := by
  rw [held, inDegree, List.count_nil, Nat.add_zero, ← Nat.pos_iff_ne_zero, List.count_pos_iff] at h
  rcases List.mem_flatMap.mp h with ⟨u, hu, hid⟩
  rw [List.mem_filter] at hu
  exact ⟨u, hu.1, by simpa using hu.2, hid⟩

/-! ### Counters -/

theorem lookup_map_self {ids : List String} {f : String → Nat} {id : String} (h : id ∈ ids) :
    (ids.map fun x => (x, f x)).lookup id = some (f id) := by
  induction ids with
  | nil =>
      cases h
  | cons x ids ih =>
      rw [List.map_cons, List.lookup_cons]
      by_cases hx : id = x
      · simp [hx]
      · simp only [beq_eq_false_iff_ne.mpr hx]
        exact ih ((List.mem_cons.mp h).resolve_left hx)

theorem lookup_map_eq_none {ids : List String} {f : String → Nat} {id : String} (h : id ∉ ids) :
    (ids.map fun x => (x, f x)).lookup id = none := by
  rw [List.lookup_eq_none_iff]
  intro entry hentry
  rcases List.mem_map.mp hentry with ⟨x, hx, rfl⟩
  rw [bne_iff_ne]
  rintro rfl
  exact h hx

namespace Emission

theorem lower_map (ids : List String) (f : String → Nat) (t : String) :
    lower (ids.map fun x => (x, f x)) t = ids.map fun x => (x, if x = t then f x - 1 else f x) := by
  rw [lower, List.map_map]
  refine List.map_congr_left fun x _ => ?_
  by_cases hx : x = t <;> simp [hx]

/-! ### The queue -/

/-- An id that was ever ready is emitted or in the queue, and in one of them once. -/
structure Queueing (s : Emission) : Prop where
  mem_queued : ∀ id, id ∈ s.queued ↔ id ∈ s.order ++ s.queue
  nodup : (s.order ++ s.queue).Nodup

@[simp] theorem enqueue_order (s : Emission) (id : String) : (s.enqueue id).order = s.order := by
  unfold enqueue
  split <;> rfl

@[simp] theorem enqueue_counters (s : Emission) (id : String) :
    (s.enqueue id).counters = s.counters := by
  unfold enqueue
  split <;> rfl

theorem mem_queued_enqueue (s : Emission) (id x : String) :
    x ∈ (s.enqueue id).queued ↔ x = id ∨ x ∈ s.queued := by
  unfold enqueue
  split
  · next hid =>
      constructor
      · exact Or.inr
      · rintro (rfl | hx)
        · exact hid
        · exact hx
  · simp

theorem Queueing.enqueue {s : Emission} (h : Queueing s) (id : String) :
    Queueing (s.enqueue id) := by
  unfold Emission.enqueue
  split
  · exact h
  · next hid =>
      have hnew : id ∉ s.order ++ s.queue := fun hmem => hid ((h.mem_queued id).mpr hmem)
      constructor
      · intro x
        simp only [List.mem_cons, h.mem_queued x, ← List.append_assoc, List.mem_append,
          List.not_mem_nil, or_false]
        tauto
      · rw [← List.append_assoc]
        refine List.nodup_append.mpr ⟨h.nodup, by simp, ?_⟩
        rintro x hx y hy rfl
        exact hnew (List.mem_singleton.mp hy ▸ hx)

theorem enqueueAll_spec {s : Emission} (h : Queueing s) (ids : List String) :
    Queueing (ids.foldl enqueue s) ∧ (ids.foldl enqueue s).order = s.order
      ∧ (ids.foldl enqueue s).counters = s.counters
      ∧ ∀ x, x ∈ (ids.foldl enqueue s).queued ↔ x ∈ ids ∨ x ∈ s.queued := by
  induction ids generalizing s with
  | nil =>
      simp [h]
  | cons id ids ih =>
      rcases ih (h.enqueue id) with ⟨hqueueing, horder, hcounters, hqueued⟩
      refine ⟨hqueueing, horder.trans (enqueue_order s id), hcounters.trans (enqueue_counters s id),
        fun x => ?_⟩
      rw [List.foldl_cons, hqueued, mem_queued_enqueue, List.mem_cons]
      tauto

/-! ### The invariant of the emission -/

/-- What holds at every step of an emission, where `left` are the edges of the id being emitted that
are not taken away yet: each counter tells how many edges hold its id back, an id is ready exactly
when nothing holds it back, and an id is emitted after all ids that it is a target of. -/
structure Invariant (targets : String → List String) (closure : List String) (s : Emission)
    (left : List String) : Prop extends Queueing s where
  counters : s.counters = closure.map fun id => (id, held targets closure s.order left id)
  within : ∀ id ∈ s.queued, id ∈ closure
  ready : ∀ id ∈ closure, id ∈ s.queued ↔ held targets closure s.order left id = 0
  sorted : ∀ before id after, s.order = before ++ id :: after →
    ∀ u ∈ closure, id ∈ targets u → u ∈ before

theorem Invariant.lookup_eq {s : Emission} {left : List String} {id : String}
    (h : Invariant targets closure s left) (hid : id ∈ closure) :
    s.counters.lookup id = some (held targets closure s.order left id) := by
  rw [h.counters, lookup_map_self hid]

/-- What is emitted is of the closure. -/
theorem Invariant.order_subset {s : Emission} {left : List String}
    (h : Invariant targets closure s left) : s.order ⊆ closure :=
  fun id hid => h.within id ((h.mem_queued id).mpr (List.mem_append_left _ hid))

/-- Taking away an edge lowers the counter of its target, which becomes ready when nothing else
holds it. -/
theorem Invariant.release_eq {s : Emission} {t : String} {left : List String}
    (h : Invariant targets closure s (t :: left)) (ht : t ∈ closure) :
    let lowered : Emission :=
      { s with counters := closure.map fun id => (id, held targets closure s.order left id) }
    s.release t
      = if held targets closure s.order left t = 0 then lowered.enqueue t else lowered := by
  have hlookup : s.counters.lookup t = some (held targets closure s.order left t + 1) := by
    rw [h.lookup_eq ht, held_cons, if_pos rfl]
  have hlower : lower s.counters t
      = closure.map fun id => (id, held targets closure s.order left id) := by
    rw [h.counters, lower_map]
    refine List.map_congr_left fun id _ => ?_
    by_cases hid : id = t
    · simp [hid, held_cons]
    · simp [hid, held_cons, Ne.symm hid]
  simp only [Emission.release, hlookup, hlower, Nat.reduceEqDiff]

theorem held_cons_of_ne {order left : List String} {t id : String} (h : id ≠ t) :
    held targets closure order (t :: left) id = held targets closure order left id := by
  rw [held_cons, if_neg (Ne.symm h), Nat.add_zero]

/-- An id that an edge still leads to was never ready. -/
theorem Invariant.not_mem_queued {s : Emission} {t : String} {left : List String}
    (h : Invariant targets closure s (t :: left)) (ht : t ∈ closure) : t ∉ s.queued := by
  rw [h.ready t ht, held_cons, if_pos rfl]
  omega

/-- Taking away an edge into the closure. Its target becomes ready when nothing else holds it. -/
theorem Invariant.release_of_mem {s : Emission} {t : String} {left : List String}
    (h : Invariant targets closure s (t :: left)) (ht : t ∈ closure) :
    Invariant targets closure (s.release t) left := by
  rw [h.release_eq ht]
  split
  · next hzero =>
      have hkept : Queueing { s with
          counters := closure.map fun id => (id, held targets closure s.order left id) } :=
        ⟨h.mem_queued, h.nodup⟩
      refine ⟨hkept.enqueue t, ?_, ?_, ?_, ?_⟩
      · rw [enqueue_counters, enqueue_order]
      · intro id hid
        rcases (mem_queued_enqueue _ _ _).mp hid with rfl | hid
        · exact ht
        · exact h.within id hid
      · intro id hid
        rw [mem_queued_enqueue, enqueue_order]
        by_cases hidt : id = t
        · simp [hidt, hzero]
        · rw [← held_cons_of_ne hidt, ← h.ready id hid]
          simp [hidt]
      · rw [enqueue_order]
        exact h.sorted
  · next hnonzero =>
      refine { h with counters := rfl, ready := fun id hid => ?_ }
      by_cases hidt : id = t
      · rw [hidt]
        exact iff_of_false (h.not_mem_queued ht) hnonzero
      · rw [h.ready id hid, held_cons_of_ne hidt]

/-- An edge that leaves the closure has no counter and holds nothing back. -/
theorem Invariant.release_of_not_mem {s : Emission} {t : String} {left : List String}
    (h : Invariant targets closure s (t :: left)) (ht : t ∉ closure) :
    Invariant targets closure (s.release t) left := by
  have hsame : ∀ id ∈ closure,
      held targets closure s.order (t :: left) id = held targets closure s.order left id := by
    intro id hid
    have hne : t ≠ id := fun heq => ht (heq ▸ hid)
    simp [held_cons, hne]
  have hlookup : s.counters.lookup t = none := by
    rw [h.counters, lookup_map_eq_none ht]
  simp only [Emission.release, hlookup]
  refine { h with counters := ?_, ready := ?_ }
  · rw [h.counters]
    exact List.map_congr_left fun id hid => by rw [hsame id hid]
  · intro id hid
    rw [h.ready id hid, hsame id hid]

/-- Taking away one edge keeps the invariant. -/
theorem Invariant.release {s : Emission} {t : String} {left : List String}
    (h : Invariant targets closure s (t :: left)) :
    Invariant targets closure (s.release t) left := by
  by_cases ht : t ∈ closure
  · exact h.release_of_mem ht
  · exact h.release_of_not_mem ht

theorem Invariant.releaseAll {s : Emission} {left : List String}
    (h : Invariant targets closure s left) :
    Invariant targets closure (left.foldl Emission.release s) [] := by
  induction left generalizing s with
  | nil =>
      exact h
  | cons t left ih =>
      exact ih h.release

/-- The id that is emitted next was not emitted before, and all ids that it is a target of were. -/
theorem Invariant.next {s : Emission} {id : String} {rest : List String}
    (h : Invariant targets closure s []) (hqueue : s.queue = id :: rest) :
    id ∈ closure ∧ id ∉ s.order ∧ ∀ u ∈ closure, id ∈ targets u → u ∈ s.order := by
  have hqueued : id ∈ s.queued := by
    rw [h.mem_queued, hqueue]
    simp
  have hclosure := h.within id hqueued
  refine ⟨hclosure, fun horder => ?_, fun u hu hid => ?_⟩
  · have hnodup := h.nodup
    rw [hqueue] at hnodup
    exact (List.nodup_append.mp hnodup).2.2 id horder id List.mem_cons_self rfl
  · exact mem_order_of_held_eq_zero ((h.ready id hclosure).mp hqueued) hu hid

/-- Emitting an id leaves the edges that leave it to be taken away. -/
theorem Invariant.emit {s : Emission} {id : String} {rest : List String}
    (hnodup : closure.Nodup) (h : Invariant targets closure s []) (hqueue : s.queue = id :: rest) :
    Invariant targets closure { s with order := s.order ++ [id], queue := rest } (targets id) := by
  rcases h.next hqueue with ⟨hclosure, hnew, hsources⟩
  refine ⟨⟨?_, ?_⟩, ?_, h.within, ?_, ?_⟩
  · intro x
    rw [h.mem_queued, hqueue]
    simp
  · have hall := h.nodup
    rw [hqueue] at hall
    simpa using hall
  · rw [h.counters]
    exact List.map_congr_left fun x _ => by rw [held_emit hnodup hclosure hnew]
  · intro x hx
    rw [h.ready x hx, held_emit hnodup hclosure hnew]
  · intro before x after hsplit u hu hxu
    rcases List.eq_nil_or_concat after with rfl | ⟨after, last, rfl⟩
    · rcases List.append_inj' hsplit rfl with ⟨rfl, hlast⟩
      rw [← List.singleton_inj.mp hlast] at hxu
      exact hsources u hu hxu
    · rw [List.concat_eq_append, ← List.cons_append, ← List.append_assoc] at hsplit
      exact h.sorted before x after (List.append_inj' hsplit rfl).1 u hu hxu

/-- Emitting an id, with the edges that leave it, keeps the invariant. -/
theorem Invariant.advance {s : Emission} {id : String} {rest : List String}
    (hnodup : closure.Nodup) (h : Invariant targets closure s []) (hqueue : s.queue = id :: rest) :
    Invariant targets closure (Emission.advance targets id rest s) [] :=
  (h.emit hnodup hqueue).releaseAll

theorem run_of_nil {s : Emission} (hqueue : s.queue = []) : s.run targets = s := by
  rw [Emission.run]
  split
  · rfl
  · next hcons =>
      rw [hqueue] at hcons
      cases hcons

theorem run_of_cons {s : Emission} {id : String} {rest : List String}
    (hqueue : s.queue = id :: rest) :
    s.run targets = (Emission.advance targets id rest s).run targets := by
  rw [Emission.run]
  split
  · next hnil =>
      rw [hqueue] at hnil
      cases hnil
  · next id' rest' hcons =>
      rw [hqueue] at hcons
      cases hcons
      rfl

/-- A run keeps the invariant and leaves nothing ready. -/
theorem Invariant.run {s : Emission} (hnodup : closure.Nodup) (h : Invariant targets closure s []) :
    Invariant targets closure (s.run targets) [] ∧ (s.run targets).queue = [] := by
  induction s using Emission.run.induct targets with
  | case1 s hqueue =>
      rw [run_of_nil hqueue]
      exact ⟨h, hqueue⟩
  | case2 s id rest hqueue ih =>
      rw [run_of_cons hqueue]
      exact ih (h.advance hnodup hqueue)

end Emission

open Emission

/-- The emission starts in order when every id that nothing leads to is a root. -/
theorem invariant_startEmission {roots : List String} (hroots : roots ⊆ closure)
    (hstart : ∀ id ∈ closure, inDegree targets closure id = 0 → id ∈ roots) :
    Invariant targets closure (startEmission targets closure roots) [] := by
  have hempty : Queueing ⟨[], [], [], closure.map fun id => (id, inDegree targets closure id)⟩ :=
    ⟨by simp, List.nodup_nil⟩
  obtain ⟨hqueueing, horder, hcounters, hqueued⟩ :=
    enqueueAll_spec hempty (roots.filter (inDegree targets closure · == 0))
  have hready : ∀ id, id ∈ (startEmission targets closure roots).queued ↔
      id ∈ roots ∧ inDegree targets closure id = 0 := by
    intro id
    refine (hqueued id).trans ?_
    simp
  refine ⟨hqueueing, ?_, fun id hid => hroots ((hready id).mp hid).1, ?_, ?_⟩
  · refine hcounters.trans (List.map_congr_left fun id _ => ?_)
    rw [startEmission, horder, held_nil_nil]
  · intro id hid
    rw [hready, startEmission, horder, held_nil_nil]
    exact ⟨And.right, fun hzero => ⟨hstart id hid hzero, hzero⟩⟩
  · intro before id after hsplit
    rw [startEmission, horder] at hsplit
    cases before <;> cases hsplit

/-! ### The order -/

/-- An id is emitted before its targets. -/
theorem Emission.Invariant.idxOf_lt {s : Emission} {left : List String} {u v : String}
    (h : Invariant targets closure s left) (hu : u ∈ closure) (hv : v ∈ s.order)
    (huv : v ∈ targets u) : s.order.idxOf u < s.order.idxOf v := by
  rcases List.append_of_mem hv with ⟨before, after, hsplit⟩
  have hbefore : u ∈ before := h.sorted before v after hsplit u hu huv
  have hnodup := (List.nodup_append.mp h.nodup).1
  rw [hsplit] at hnodup
  have hv : v ∉ before := fun hmem =>
    (List.nodup_append.mp hnodup).2.2 v hmem v List.mem_cons_self rfl
  rw [hsplit, List.idxOf_append_of_mem hbefore, List.idxOf_append_of_notMem hv]
  exact Nat.lt_of_lt_of_le (List.idxOf_lt_length_of_mem hbefore) (Nat.le_add_right _ _)

/-! ### The end of a run -/

/-- Where every member of a list is led to from a member, some member leads back to itself. -/
theorem exists_transGen_self {r : String → String → Prop} {ids : List String} (hne : ids ≠ [])
    (h : ∀ id ∈ ids, ∃ u ∈ ids, r u id) : ∃ id ∈ ids, Relation.TransGen r id id := by
  refine Classical.byContradiction fun hno => ?_
  have hirrefl : ∀ id ∈ ids, ¬ Relation.TransGen r id id := fun id hid hself =>
    hno ⟨id, hid, hself⟩
  let back : {id // id ∈ ids} → {id // id ∈ ids} → Prop := fun u v => Relation.TransGen r u.1 v.1
  have : Finite {id // id ∈ ids} := List.finite_toSet ids
  have : IsTrans _ back := ⟨fun _ _ _ => Relation.TransGen.trans⟩
  have : Std.Irrefl back := ⟨fun id => hirrefl id.1 id.2⟩
  have hwf : WellFounded back := Finite.wellFounded_of_trans_of_irrefl back
  have hnone : ∀ _id : {id // id ∈ ids}, False := by
    intro id
    induction id using hwf.induction with
    | _ id ih =>
        rcases h id.1 id.2 with ⟨u, hu, hr⟩
        exact ih ⟨u, hu⟩ (.single hr)
  rcases List.exists_mem_of_ne_nil ids hne with ⟨id, hid⟩
  exact hnone ⟨id, hid⟩

/-- An id that is left over when nothing is ready is held back by a cycle that leads to it. -/
theorem Emission.Invariant.exists_cycle {s : Emission} {id : String}
    (h : Invariant targets closure s []) (hqueue : s.queue = []) (hid : id ∈ closure)
    (hnew : id ∉ s.order) :
    ∃ u ∈ closure, Relation.TransGen (fun u v => v ∈ targets u) u u
      ∧ Relation.ReflTransGen (fun u v => v ∈ targets u) u id := by
  classical
  -- Walking back from the id over ids that are left over as well never comes to an end.
  have hback : ∀ v ∈ (closure.filter (· ∉ s.order)).filter
        (Relation.ReflTransGen (fun u v => v ∈ targets u) · id),
      ∃ u ∈ (closure.filter (· ∉ s.order)).filter
        (Relation.ReflTransGen (fun u v => v ∈ targets u) · id), v ∈ targets u := by
    intro v hv
    simp only [List.mem_filter, decide_eq_true_eq] at hv ⊢
    obtain ⟨⟨hclosure, hleft⟩, hpath⟩ := hv
    have hbusy : v ∉ s.queued := by
      rw [h.mem_queued, hqueue, List.append_nil]
      exact hleft
    rcases exists_of_held_ne_zero (mt (h.ready v hclosure).mpr hbusy) with ⟨u, hu, hwaiting, huv⟩
    exact ⟨u, ⟨⟨hu, hwaiting⟩, .head huv hpath⟩, huv⟩
  have hstart : id ∈ (closure.filter (· ∉ s.order)).filter
      (Relation.ReflTransGen (fun u v => v ∈ targets u) · id) := by
    simp [hid, hnew, Relation.ReflTransGen.refl]
  rcases exists_transGen_self (List.ne_nil_of_mem hstart) hback with ⟨u, hu, hcycle⟩
  simp only [List.mem_filter, decide_eq_true_eq] at hu
  exact ⟨u, hu.1.1, hcycle, hu.2⟩

end EnvLayers.Graph
