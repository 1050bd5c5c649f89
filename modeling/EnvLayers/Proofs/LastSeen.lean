import Mathlib.Data.List.Dedup
import Mathlib.Order.Lattice

/-
Module: EnvLayers.Proofs.LastSeen
Purpose: The members of a list, each where it stands last, as `List.dedup` keeps them. A member of
  the front of a list shows only if it does not come again behind it.
Main exports: dedup_append_filter, dedup_concat, exists_split_last, LastKey, exists_lastKey,
  pairwise_dedup_lastKey, filter_ne_concat_eq_iff, dedup_append_cons_eq_iff
-/

namespace EnvLayers

variable {α : Type} [DecidableEq α] {xs ys : List α} {x y : α}

theorem dedup_append_filter (xs ys : List α) :
    (xs ++ ys).dedup = xs.dedup.filter (· ∉ ys) ++ ys.dedup := by
  induction xs with
  | nil =>
      rfl
  | cons x xs ih =>
      rw [List.cons_append]
      by_cases hxs : x ∈ xs
      · rw [List.dedup_cons_of_mem (List.mem_append_left _ hxs), List.dedup_cons_of_mem hxs, ih]
      · rw [List.dedup_cons_of_notMem hxs]
        by_cases hys : x ∈ ys
        · rw [List.dedup_cons_of_mem (List.mem_append_right _ hys), ih,
            List.filter_cons_of_neg (by simpa using hys)]
        · rw [List.dedup_cons_of_notMem (by simp [hxs, hys]), ih,
            List.filter_cons_of_pos (by simpa using hys), List.cons_append]

/-- A new last member stands at the end, and no longer where it stood before. -/
theorem dedup_concat (xs : List α) (x : α) :
    (xs ++ [x]).dedup = xs.dedup.filter (· ≠ x) ++ [x] := by
  rw [dedup_append_filter, List.dedup_cons_of_notMem List.not_mem_nil, List.dedup_nil]
  simp only [List.mem_singleton, ne_eq]

/-! ### Last members -/

/-- A list is split at the last of its members that have a property. -/
theorem exists_split_last {α : Type} {P : α → Prop} {xs : List α} (h : ∃ x ∈ xs, P x) :
    ∃ before x after, xs = before ++ x :: after ∧ P x ∧ ∀ y ∈ after, ¬ P y := by
  induction xs with
  | nil =>
      obtain ⟨x, hx, -⟩ := h
      cases hx
  | cons x xs ih =>
      by_cases hrest : ∃ y ∈ xs, P y
      · obtain ⟨before, y, after, rfl, hy, hafter⟩ := ih hrest
        exact ⟨x :: before, y, after, rfl, hy, hafter⟩
      · obtain ⟨y, hy, hP⟩ := h
        rcases List.mem_cons.mp hy with rfl | hy
        · exact ⟨[], y, xs, rfl, hP, fun z hz hz' => hrest ⟨z, hz, hz'⟩⟩
        · exact absurd ⟨y, hy, hP⟩ hrest

/-! ### Members under keys

Where each member of a list stands under a key and the keys grow along the list, a member stands
last under the greatest of its keys. -/

section Keys

variable {κ β : Type} [LinearOrder κ] {entries : List (κ × β)} {x : β} {k : κ}

/-- The greatest key under which a member stands. -/
def LastKey (entries : List (κ × β)) (x : β) (k : κ) : Prop :=
  (k, x) ∈ entries ∧ ∀ k', (k', x) ∈ entries → k' ≤ k

theorem LastKey.unique {k' : κ} (h : LastKey entries x k) (h' : LastKey entries x k') : k = k' :=
  le_antisymm (h'.2 k h.1) (h.2 k' h'.1)

/-- A lesser key in front is the last one for nothing that stands behind it. -/
theorem LastKey.cons {entry : κ × β} (hgrows : ∀ e ∈ entries, entry.1 < e.1)
    (h : LastKey entries x k) : LastKey (entry :: entries) x k := by
  refine ⟨List.mem_cons_of_mem _ h.1, fun k' hk' => ?_⟩
  rcases List.mem_cons.mp hk' with rfl | hk'
  · exact le_of_lt (hgrows _ h.1)
  · exact h.2 k' hk'

theorem exists_lastKey (hsorted : entries.Pairwise fun e e' => e.1 < e'.1)
    (hx : x ∈ entries.map (·.2)) : ∃ k, LastKey entries x k := by
  induction entries with
  | nil =>
      cases hx
  | cons entry entries ih =>
      obtain ⟨hgrows, hsorted⟩ := List.pairwise_cons.mp hsorted
      by_cases hrest : x ∈ entries.map (·.2)
      · obtain ⟨k, hk⟩ := ih hsorted hrest
        exact ⟨k, hk.cons hgrows⟩
      · obtain rfl := (List.mem_cons.mp hx).resolve_right hrest
        refine ⟨entry.1, List.mem_cons_self, fun k' hk' => ?_⟩
        rcases List.mem_cons.mp hk' with heq | hk'
        · rw [← heq]
        · exact absurd (List.mem_map_of_mem hk') hrest

/-- The members, each where it stands last, come in the order of their last keys. -/
theorem pairwise_dedup_lastKey [DecidableEq β] (hsorted : entries.Pairwise fun e e' => e.1 < e'.1) :
    (entries.map (·.2)).dedup.Pairwise fun x y =>
      ∃ k k', LastKey entries x k ∧ LastKey entries y k' ∧ k < k' := by
  induction entries with
  | nil =>
      exact List.Pairwise.nil
  | cons entry entries ih =>
      obtain ⟨hgrows, hsorted⟩ := List.pairwise_cons.mp hsorted
      have hrest := (ih hsorted).imp fun {x y} ⟨k, k', hx, hy, hless⟩ =>
        (⟨k, k', hx.cons hgrows, hy.cons hgrows, hless⟩ : ∃ k k',
          LastKey (entry :: entries) x k ∧ LastKey (entry :: entries) y k' ∧ k < k')
      rw [List.map_cons]
      by_cases hagain : entry.2 ∈ entries.map (·.2)
      · rwa [List.dedup_cons_of_mem hagain]
      · rw [List.dedup_cons_of_notMem hagain, List.pairwise_cons]
        refine ⟨fun y hy => ?_, hrest⟩
        obtain ⟨k', hk'⟩ := exists_lastKey hsorted (List.mem_dedup.mp hy)
        refine ⟨entry.1, k', ⟨List.mem_cons_self, fun k hk => ?_⟩, hk'.cons hgrows,
          hgrows _ hk'.1⟩
        rcases List.mem_cons.mp hk with heq | hk
        · rw [← heq]
        · exact absurd (List.mem_map_of_mem hk) hagain

/-- A member comes again behind a bound of the keys exactly when its last key is not below it. -/
theorem LastKey.lt_iff {front back : List (κ × β)} {bound : κ} (hfront : ∀ e ∈ front, e.1 < bound)
    (hback : ∀ e ∈ back, bound ≤ e.1) (h : LastKey (front ++ back) x k) :
    k < bound ↔ x ∉ back.map (·.2) := by
  constructor
  · intro hless hx
    obtain ⟨e, he, rfl⟩ := List.mem_map.mp hx
    have hle := h.2 e.1 (List.mem_append_right _ he)
    exact absurd (lt_of_lt_of_le hless (hback e he)) (not_lt_of_ge hle)
  · intro hx
    rcases List.mem_append.mp h.1 with hk | hk
    · exact hfront _ hk
    · exact absurd (List.mem_map_of_mem hk) hx

end Keys

/-! ### Members that come once more -/

/-- In a list that a relation sorts, a member that moves to the end stays where it is exactly when
it is before nothing. -/
theorem filter_ne_concat_eq_iff {r : α → α → Prop} (hasymm : ∀ x y, r x y → ¬ r y x)
    (hnodup : xs.Nodup) (hsorted : xs.Pairwise r) (hx : x ∈ xs) :
    xs.filter (· ≠ x) ++ [x] = xs ↔ ∀ y ∈ xs, ¬ r x y := by
  obtain ⟨before, after, rfl⟩ := List.append_of_mem hx
  obtain ⟨-, htail, hapart⟩ := List.nodup_append.mp hnodup
  have hbefore : ∀ y ∈ before, y ≠ x := fun y hy => hapart y hy x List.mem_cons_self
  have hafter : ∀ y ∈ after, y ≠ x := fun y hy heq => (List.nodup_cons.mp htail).1 (heq ▸ hy)
  obtain ⟨-, hbehind, hfront⟩ := List.pairwise_append.mp hsorted
  rw [List.filter_append, List.filter_cons_of_neg (by simp),
    List.filter_eq_self.mpr (by simpa using hbefore),
    List.filter_eq_self.mpr (by simpa using hafter)]
  cases after with
  | nil =>
      refine iff_of_true (by rw [List.append_nil]) fun y hy hless => ?_
      rcases List.mem_append.mp hy with hy | hy
      · exact hasymm x y hless (hfront y hy x List.mem_cons_self)
      · rw [List.mem_singleton.mp hy] at hless
        exact hasymm x x hless hless
  | cons y after =>
      refine iff_of_false (fun heq => ?_) fun hnone => ?_
      · rw [List.append_assoc, List.append_right_inj] at heq
        exact hafter y List.mem_cons_self (List.cons.inj heq).1
      · exact hnone y (by simp) (List.rel_of_pairwise_cons hbehind List.mem_cons_self)

/-- Writing a member of the front once more behind it moves it there, unless it comes again anyway
or is before nothing that comes last in the front. -/
theorem dedup_append_cons_eq_iff {r : α → α → Prop} (hasymm : ∀ x y, r x y → ¬ r y x)
    (hsorted : (xs ++ ys).dedup.Pairwise r) (hx : x ∈ xs) :
    (xs ++ x :: ys).dedup = (xs ++ ys).dedup
      ↔ ¬ (x ∉ ys ∧ ∃ y ∈ xs, y ∉ ys ∧ r x y) := by
  by_cases hys : x ∈ ys
  · have hsame : ∀ y, y ∈ x :: ys ↔ y ∈ ys := by
      intro y
      rw [List.mem_cons, or_iff_right_of_imp]
      rintro rfl
      exact hys
    simp [dedup_append_filter, hsame, List.dedup_cons_of_mem hys, hys]
  · have hfront : x ∈ xs.dedup.filter (· ∉ ys) := by
      simp [hx, hys]
    have hmoved : xs.dedup.filter (· ∉ x :: ys) = (xs.dedup.filter (· ∉ ys)).filter (· ≠ x) := by
      rw [List.filter_filter]
      refine List.filter_congr fun y _ => ?_
      simp
    rw [dedup_append_filter] at hsorted
    have hstays := filter_ne_concat_eq_iff hasymm ((List.nodup_dedup xs).filter _)
      (List.pairwise_append.mp hsorted).1 hfront
    rw [dedup_append_filter, dedup_append_filter, hmoved, List.dedup_cons_of_notMem hys,
      List.append_cons, List.append_left_inj, hstays]
    simp [hys]

end EnvLayers
