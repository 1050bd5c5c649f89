import EnvLayers.Graph.Basic
import EnvLayers.Lookup

/-
Module: EnvLayers.Graph.Closure
Purpose: The packages that can be reached from some roots over followed requirements, each before
  everything that it depends on. Discovery is breadth first; the order then emits a package when all
  packages that depend on it have been emitted.
Main exports: Graph.discover, Graph.Emission, Graph.Emission.run, Graph.closure
-/

namespace EnvLayers

namespace Graph

/-- The followed targets of a package, none for an id that is not declared. -/
def targets (g : Graph) (follow : Requirement → Bool) (id : String) : List String :=
  match g.node? id with
  | some n => n.targets follow
  | none => []

/-- The declared ids that have not been found. -/
def unseen (g : Graph) (found : List String) : List String := g.ids.filter (· ∉ found)

theorem mem_ids_of_node? {g : Graph} {id : String} {n : Node} (h : g.node? id = some n) :
    id ∈ g.ids := by
  have hmem := List.mem_of_find?_eq_some h
  have heq : n.id = id := by simpa using List.find?_some h
  exact List.mem_map.mpr ⟨n, hmem, heq⟩

/-- Keeping fewer elements of a list that has one the second test drops leaves a shorter list. -/
theorem length_filter_lt_of_imp {α : Type} {p q : α → Bool} {l : List α}
    (hsub : ∀ x ∈ l, q x = true → p x = true) {a : α} (ha : a ∈ l) (hp : p a = true)
    (hq : q a = false) : (l.filter q).length < (l.filter p).length := by
  have heq : l.filter q = (l.filter p).filter q := by
    rw [List.filter_filter]
    refine List.filter_congr fun x hx => ?_
    cases hqx : q x with
    | false => simp
    | true => simp [hsub x hx hqx]
  rw [heq]
  exact List.length_filter_lt_length_iff_exists.mpr
    ⟨a, List.mem_filter.mpr ⟨ha, hp⟩, by simp [hq]⟩

theorem unseen_lt {g : Graph} {found : List String} {id : String} {n : Node}
    (hnew : id ∉ found) (h : g.node? id = some n) :
    (g.unseen (found ++ [id])).length < (g.unseen found).length := by
  refine length_filter_lt_of_imp ?_ (mem_ids_of_node? h) (by simpa using hnew) (by simp)
  intro x _ hx
  simp only [decide_eq_true_eq, List.mem_append, not_or] at hx ⊢
  exact hx.1

/-- The ids reachable from `pending`, in the order in which a breadth-first walk meets them, after
those already `found`. The first id that is not declared ends the walk. -/
def discoverFrom (g : Graph) (follow : Requirement → Bool) (found : List String) :
    List String → Outcome (List String)
  | [] => .ok found
  | id :: pending =>
    if _hseen : id ∈ found then discoverFrom g follow found pending
    else
      match _hnode : g.node? id with
      | none => .error (g.unknown id)
      | some n => discoverFrom g follow (found ++ [id]) (pending ++ n.targets follow)
termination_by pending => ((g.unseen found).length, pending.length)
decreasing_by
  · exact Prod.Lex.right _ (by simp)
  · exact Prod.Lex.left _ _ (unseen_lt _hseen _hnode)

/-- The ids reachable from the roots, in breadth-first order. -/
def discover (g : Graph) (follow : Requirement → Bool) (roots : List String) :
    Outcome (List String) :=
  g.discoverFrom follow [] roots

/-- The state of the emission: the ids emitted, those ready to be emitted, all that were ever ready,
and for each id of the closure the number of followed edges that still lead to it. -/
structure Emission where
  order : List String
  queue : List String
  queued : List String
  counters : List (String × Nat)
deriving Repr, DecidableEq

namespace Emission

/-- Makes an id ready, once. -/
def enqueue (s : Emission) (id : String) : Emission :=
  if id ∈ s.queued then s else { s with queue := s.queue ++ [id], queued := id :: s.queued }

/-- Counts one edge to an id as gone. -/
def lower (counters : List (String × Nat)) (id : String) : List (String × Nat) :=
  counters.map fun entry => if entry.1 = id then (entry.1, entry.2 - 1) else entry

/-- Takes away one edge to `target`, which becomes ready when it was the last. -/
def release (s : Emission) (target : String) : Emission :=
  match s.counters.lookup target with
  | none => s
  | some n =>
    let s := { s with counters := lower s.counters target }
    if n = 1 then s.enqueue target else s

/-- Emits the first ready id and takes away the edges that leave it. -/
def advance (targets : String → List String) (id : String) (rest : List String) (s : Emission) :
    Emission :=
  (targets id).foldl release { s with order := s.order ++ [id], queue := rest }

/-- The emissions that can still follow: the ids that are ready and those that never were. -/
def remaining (s : Emission) : Nat :=
  s.queue.length + (s.counters.filter fun entry => entry.1 ∉ s.queued).length

theorem length_filter_lower (counters : List (String × Nat)) (id : String) (p : String → Bool) :
    ((lower counters id).filter fun entry => p entry.1).length
      = (counters.filter fun entry => p entry.1).length := by
  unfold lower
  rw [List.filter_map, List.length_map]
  congr 2
  funext entry
  simp only [Function.comp]
  split <;> rfl

theorem remaining_release_le (s : Emission) (target : String) :
    (s.release target).remaining ≤ s.remaining := by
  unfold release
  split
  · exact Nat.le_refl _
  · next n hn =>
    have hkeep : ({ s with counters := lower s.counters target } : Emission).remaining
        = s.remaining := by
      have h := length_filter_lower s.counters target (fun k => decide (k ∉ s.queued))
      simp only [remaining, h]
    dsimp only
    split
    · unfold enqueue
      split
      · exact Nat.le_of_eq hkeep
      · next hnew =>
        rw [← hkeep]
        obtain ⟨entry, hentry, hkey⟩ : ∃ e ∈ lower s.counters target, e.1 = target := by
          exact ⟨(target, n - 1),
            List.mem_map.mpr ⟨(target, n), mem_of_lookup hn, by simp⟩, rfl⟩
        have hlt : ((lower s.counters target).filter
              fun e => decide (e.1 ∉ target :: s.queued)).length
            < ((lower s.counters target).filter fun e => decide (e.1 ∉ s.queued)).length := by
          refine length_filter_lt_of_imp ?_ hentry (by simpa [hkey] using hnew) (by simp [hkey])
          intro x _ hx
          simp only [decide_eq_true_eq, List.mem_cons, not_or] at hx ⊢
          exact hx.2
        simp only [remaining, List.length_append, List.length_cons, List.length_nil]
        omega
    · exact Nat.le_of_eq hkeep

theorem remaining_foldl_release_le (targets : List String) (s : Emission) :
    (targets.foldl release s).remaining ≤ s.remaining := by
  induction targets generalizing s with
  | nil => exact Nat.le_refl _
  | cons t ts ih => exact Nat.le_trans (ih _) (remaining_release_le s t)

/-- Emits until nothing is ready. -/
def run (targets : String → List String) (s : Emission) : Emission :=
  match _h : s.queue with
  | [] => s
  | id :: rest => run targets (advance targets id rest s)
termination_by s.remaining
decreasing_by
  refine Nat.lt_of_le_of_lt (remaining_foldl_release_le _ _) ?_
  simp [remaining, _h]

end Emission

/-- The number of followed edges into an id from the ids of a closure, repeated edges counted. -/
def inDegree (targets : String → List String) (closure : List String) (id : String) : Nat :=
  (closure.flatMap targets).count id

/-- The state before the first emission: those roots are ready that no followed edge leads to. -/
def startEmission (targets : String → List String) (closure roots : List String) : Emission :=
  let degree := inDegree targets closure
  (roots.filter (degree · == 0)).foldl Emission.enqueue
    ⟨[], [], [], closure.map fun id => (id, degree id)⟩

/-- The ids reachable from the roots over followed requirements, each before everything that it
depends on. It fails at the first id that is not declared, and when a cycle keeps ids from becoming
ready. -/
def closureIds (g : Graph) (follow : Requirement → Bool) (roots : List String) :
    Outcome (List String) := do
  let found ← g.discover follow roots
  let order := ((startEmission (g.targets follow) found roots).run (g.targets follow)).order
  if order.length = found.length then return order
  else throw (.cyclicDependency (found.filter (· ∉ order)))

/-- The packages reachable from the roots of some requirements, in the order of `closureIds`. -/
def closure (g : Graph) (follow : Requirement → Bool) (roots : List Requirement) :
    Outcome (List Node) := do
  let ids ← g.closureIds follow (roots.map (·.node))
  return ids.filterMap g.node?

end Graph

end EnvLayers
