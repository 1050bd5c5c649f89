/-
Module: EnvLayers.Proofs.FirstSeen
Purpose: The members of a list that are new to what was found before, each where it stands first.
Main exports: newTo, mem_newTo, nodup_newTo, newTo_append, newTo_flatMap_newTo,
  eraseDups_append_newTo, eraseDups_filter, newTo_flatMap_congr, eraseDups_append_cons_of_mem
-/

namespace EnvLayers

variable {α : Type} [DecidableEq α]

/-- The members of a list that were not found before, each where it stands first. -/
def newTo (found xs : List α) : List α := (xs.filter (· ∉ found)).eraseDups

theorem mem_newTo {found xs : List α} {x : α} : x ∈ newTo found xs ↔ x ∈ xs ∧ x ∉ found := by
  simp [newTo, List.mem_eraseDups]

@[simp] theorem newTo_nil (found : List α) : newTo found [] = [] := by
  simp [newTo]

@[simp] theorem nil_newTo (xs : List α) : newTo [] xs = xs.eraseDups := by
  rw [newTo, List.filter_eq_self.mpr (by simp)]

theorem newTo_cons_of_mem {found xs : List α} {x : α} (h : x ∈ found) :
    newTo found (x :: xs) = newTo found xs := by
  simp [newTo, h]

theorem newTo_cons_of_not_mem {found xs : List α} {x : α} (h : x ∉ found) :
    newTo found (x :: xs) = x :: newTo (found ++ [x]) xs := by
  have hkept : (x :: xs).filter (· ∉ found) = x :: xs.filter (· ∉ found) := by
    simp [h]
  have hrest : (xs.filter (· ∉ found)).filter (fun y => !y == x)
      = xs.filter (· ∉ found ++ [x]) := by
    rw [List.filter_filter]
    refine List.filter_congr fun y _ => ?_
    by_cases hy : y = x <;> simp [hy]
  rw [newTo, hkept, List.eraseDups_cons, hrest, newTo]

/-- What is new depends only on which members were found, not on their order. -/
theorem newTo_congr {found found' : List α} (h : ∀ x, x ∈ found ↔ x ∈ found') (xs : List α) :
    newTo found xs = newTo found' xs := by
  simp only [newTo, h]

theorem newTo_eq_nil_of_subset {found xs : List α} (h : xs ⊆ found) : newTo found xs = [] := by
  refine List.eq_nil_iff_forall_not_mem.mpr fun x hx => ?_
  exact (mem_newTo.mp hx).2 (h (mem_newTo.mp hx).1)

theorem nodup_newTo (found xs : List α) : (newTo found xs).Nodup := by
  induction xs generalizing found with
  | nil =>
      simp [-nil_newTo]
  | cons x xs ih =>
      by_cases hx : x ∈ found
      · rw [newTo_cons_of_mem hx]
        exact ih found
      · rw [newTo_cons_of_not_mem hx, List.nodup_cons]
        refine ⟨fun hmem => ?_, ih _⟩
        exact (mem_newTo.mp hmem).2 (List.mem_append_right _ List.mem_cons_self)

theorem newTo_append (found first second : List α) :
    newTo found (first ++ second) = newTo found first ++ newTo (found ++ first) second := by
  induction first generalizing found with
  | nil =>
      simp [-nil_newTo]
  | cons x first ih =>
      by_cases hx : x ∈ found
      · have hsame : newTo (found ++ first) second = newTo (found ++ x :: first) second := by
          refine newTo_congr (fun y => ?_) second
          simp only [List.mem_append, List.mem_cons]
          by_cases hy : y = x <;> simp [hy, hx]
        rw [List.cons_append, newTo_cons_of_mem hx, newTo_cons_of_mem hx, ih, hsame]
      · rw [List.cons_append, newTo_cons_of_not_mem hx, newTo_cons_of_not_mem hx, ih]
        simp

theorem eraseDups_append_newTo (first second : List α) :
    (first ++ second).eraseDups = first.eraseDups ++ newTo first second := by
  rw [← nil_newTo, newTo_append, nil_newTo, List.nil_append]

/-- What is behind members that were found before, or that stand in the list already, is not new. -/
theorem newTo_flatMap_newTo {next : α → List α} {found seen : List α}
    (hclosed : ∀ x ∈ found, next x ⊆ seen) (xs : List α) :
    newTo seen ((newTo found xs).flatMap next) = newTo seen (xs.flatMap next) := by
  induction xs generalizing found seen with
  | nil =>
      simp
  | cons x xs ih =>
      by_cases hx : x ∈ found
      · have hold : newTo seen (next x) = [] := newTo_eq_nil_of_subset (hclosed x hx)
        have hseen : newTo (seen ++ next x) (xs.flatMap next) = newTo seen (xs.flatMap next) := by
          refine newTo_congr (fun y => ?_) _
          rw [List.mem_append]
          exact ⟨fun hy => hy.elim (fun hy => hy) fun hy => hclosed x hx hy, Or.inl⟩
        rw [newTo_cons_of_mem hx, ih hclosed, List.flatMap_cons, newTo_append, hold, hseen,
          List.nil_append]
      · have hgrown : ∀ y ∈ found ++ [x], next y ⊆ seen ++ next x := by
          intro y hy z hz
          rcases List.mem_append.mp hy with hy | hy
          · exact List.mem_append_left _ (hclosed y hy hz)
          · rw [List.mem_singleton.mp hy] at hz
            exact List.mem_append_right _ hz
        rw [newTo_cons_of_not_mem hx, List.flatMap_cons, List.flatMap_cons, newTo_append,
          newTo_append, ih hgrown]

theorem newTo_newTo_nil (found xs : List α) : newTo found (newTo [] xs) = newTo found xs := by
  have hclosed : ∀ x ∈ ([] : List α), [x] ⊆ found := by
    intro x hx
    cases hx
  simpa using newTo_flatMap_newTo hclosed xs

theorem filter_newTo (p : α → Bool) (found xs : List α) :
    (newTo found xs).filter p = newTo found (xs.filter p) := by
  induction xs generalizing found with
  | nil =>
      rw [newTo_nil, List.filter_nil, newTo_nil]
  | cons x xs ih =>
      by_cases hx : x ∈ found
      · rw [newTo_cons_of_mem hx, ih, List.filter_cons]
        split
        · rw [newTo_cons_of_mem hx]
        · rfl
      · rw [newTo_cons_of_not_mem hx, List.filter_cons, List.filter_cons, ih]
        split
        · rw [newTo_cons_of_not_mem hx]
        · next hp =>
            have hkept : xs.filter p = xs.filter fun y => p y && decide (y ≠ x) := by
              refine List.filter_congr fun y _ => ?_
              by_cases hy : y = x
              · simp [hy, hp]
              · simp [hy]
            rw [newTo, newTo, hkept, List.filter_filter, List.filter_filter]
            congr 1
            refine List.filter_congr fun y _ => ?_
            by_cases hy : y = x <;> simp [hy]

/-- What is kept of first occurrences are the first occurrences of what is kept. -/
theorem eraseDups_filter (p : α → Bool) (xs : List α) :
    (xs.filter p).eraseDups = xs.eraseDups.filter p := by
  rw [← nil_newTo, ← filter_newTo, nil_newTo]

/-! ### Lists with the same first occurrences -/

variable {xs ys : List α}

theorem mem_iff_of_eraseDups_eq {x : α} (h : xs.eraseDups = ys.eraseDups) : x ∈ xs ↔ x ∈ ys := by
  rw [← List.mem_eraseDups, h, List.mem_eraseDups]

theorem newTo_eq_of_eraseDups_eq (h : xs.eraseDups = ys.eraseDups) (found : List α) :
    newTo found xs = newTo found ys := by
  rw [← newTo_newTo_nil, nil_newTo, h, ← nil_newTo, newTo_newTo_nil]

theorem newTo_flatMap_congr {next next' : α → List α}
    (h : ∀ x, (next x).eraseDups = (next' x).eraseDups) (found xs : List α) :
    newTo found (xs.flatMap next) = newTo found (xs.flatMap next') := by
  induction xs generalizing found with
  | nil =>
      rfl
  | cons x xs ih =>
      have hseen : newTo (found ++ next x) (xs.flatMap next')
          = newTo (found ++ next' x) (xs.flatMap next') := by
        refine newTo_congr (fun y => ?_) _
        rw [List.mem_append, List.mem_append, mem_iff_of_eraseDups_eq (h x)]
      rw [List.flatMap_cons, List.flatMap_cons, newTo_append, newTo_append,
        newTo_eq_of_eraseDups_eq (h x), ih, hseen]

theorem newTo_flatMap_of_eraseDups_eq {next : α → List α} (h : xs.eraseDups = ys.eraseDups)
    (found : List α) : newTo found (xs.flatMap next) = newTo found (ys.flatMap next) := by
  have hnone : ∀ x ∈ ([] : List α), next x ⊆ found := by
    simp
  have hxs := newTo_flatMap_newTo hnone xs
  rw [nil_newTo, h, ← nil_newTo, newTo_flatMap_newTo hnone] at hxs
  exact hxs.symm

/-- A member that stands in a list already can be written once more behind it. -/
theorem eraseDups_append_cons_of_mem {x : α} (h : x ∈ xs) :
    (xs ++ x :: ys).eraseDups = (xs ++ ys).eraseDups := by
  rw [eraseDups_append_newTo, eraseDups_append_newTo, newTo_cons_of_mem h]

end EnvLayers
