import EnvLayers.Proofs.Text.Join
import EnvLayers.Variable.Basic
import Mathlib.Data.List.TakeWhile

/-
Module: EnvLayers.Proofs.Variable
Purpose: The shape of a variable that operations can make, and its text in terms of the values
  before and after the outer value.
Main exports: Variable.SingleOuter, SingleOuter.applyAll, SingleOuter.exists_sides,
  SingleOuter.items_cases, flatten_of_values, flatten_of_sides
-/

namespace EnvLayers

namespace Variable

/-! ### The shape of a variable -/

/-- The outer value stands at most once among the entries. -/
def SingleOuter (v : Variable) : Prop := v.items.count .previous ≤ 1

theorem singleOuter_fresh (name : String) : (fresh name).SingleOuter := by
  simp [SingleOuter, fresh]

theorem SingleOuter.apply {v : Variable} (h : v.SingleOuter) (op : Op) :
    (v.apply op).SingleOuter := by
  unfold SingleOuter at h ⊢
  cases op with
  | put place name value isPath separator =>
      cases place with
      | define =>
          simp [Variable.apply, placed]
      | append =>
          simpa [Variable.apply, placed, List.count_append, List.count_cons] using h
      | prepend =>
          simpa [Variable.apply, placed, List.count_cons] using h
  | unset name =>
      simp [Variable.apply, placed]

/-- No operation doubles the outer value. -/
theorem SingleOuter.applyAll {v : Variable} (h : v.SingleOuter) (ops : List Op) :
    (v.applyAll ops).SingleOuter := by
  induction ops generalizing v with
  | nil =>
      exact h
  | cons op ops ih =>
      exact ih (h.apply op)

/-- Entries without the outer value are values. -/
theorem exists_values {items : List Item} (h : .previous ∉ items) :
    ∃ values : List String, items = values.map .value := by
  induction items with
  | nil =>
      exact ⟨[], rfl⟩
  | cons item items ih =>
      obtain ⟨values, rfl⟩ := ih fun hmem => h (List.mem_cons_of_mem _ hmem)
      cases item with
      | value text =>
          exact ⟨text :: values, rfl⟩
      | previous =>
          exact absurd List.mem_cons_self h

/-- A variable that keeps the outer value has values before and after it. -/
theorem SingleOuter.exists_sides {v : Variable} (h : v.SingleOuter) (hkeeps : v.keepsOuter) :
    ∃ before after : List String,
      v.items = before.map .value ++ .previous :: after.map .value := by
  have hmem : .previous ∈ v.items := by
    simpa [keepsOuter] using hkeeps
  obtain ⟨first, last, hsplit⟩ := List.append_of_mem hmem
  rw [SingleOuter, hsplit, List.count_append, List.count_cons_self] at h
  have hfirst : first.count .previous = 0 := by
    omega
  have hlast : last.count .previous = 0 := by
    omega
  rcases exists_values (List.count_eq_zero.mp hfirst) with ⟨before, rfl⟩
  rcases exists_values (List.count_eq_zero.mp hlast) with ⟨after, rfl⟩
  exact ⟨before, after, hsplit⟩

theorem exists_values_of_not_keepsOuter {v : Variable} (h : ¬ v.keepsOuter) :
    ∃ values : List String, v.items = values.map .value := by
  refine exists_values ?_
  simpa [keepsOuter] using h

/-- A variable that keeps the outer value at most once has values around it, is unset, or has values
alone. -/
theorem SingleOuter.items_cases {v : Variable} (h : v.SingleOuter) :
    (∃ before after : List String, v.items = before.map .value ++ .previous :: after.map .value)
      ∨ v.items = [] ∨ ∃ values : List String, values ≠ [] ∧ v.items = values.map .value := by
  by_cases hkeeps : v.keepsOuter
  · exact .inl (h.exists_sides hkeeps)
  · obtain ⟨values, hitems⟩ := exists_values_of_not_keepsOuter hkeeps
    by_cases hvalues : values = []
    · rw [hvalues, List.map_nil] at hitems
      exact .inr (.inl hitems)
    · exact .inr (.inr ⟨values, hvalues, hitems⟩)

/-! ### Its sides and its text -/

@[simp] theorem valuesOf_map_value (values : List String) :
    valuesOf (values.map .value) = values := by
  induction values with
  | nil =>
      rfl
  | cons text values ih =>
      have hcons : valuesOf ((text :: values).map .value)
          = text :: valuesOf (values.map .value) := rfl
      rw [hcons, ih]

theorem sides_of_values {v : Variable} {values : List String} (h : v.items = values.map .value) :
    v.sides = (values, []) := by
  have hall : ∀ item ∈ v.items, (item != .previous) = true := by
    rw [h]
    intro item hitem
    obtain ⟨text, _, rfl⟩ := List.mem_map.mp hitem
    rfl
  rw [sides, List.takeWhile_eq_self_iff.mpr hall, List.dropWhile_eq_nil_iff.mpr hall, h,
    valuesOf_map_value]
  rfl

theorem sides_of_sides {v : Variable} {before after : List String}
    (h : v.items = before.map .value ++ .previous :: after.map .value) :
    v.sides = (before, after) := by
  have hall : ∀ item ∈ before.map Item.value, (item != .previous) = true := by
    intro item hitem
    obtain ⟨text, _, rfl⟩ := List.mem_map.mp hitem
    rfl
  rw [sides, h, List.takeWhile_append_of_pos hall, List.dropWhile_append_of_pos hall]
  have hfirst : List.takeWhile (· != .previous) (.previous :: after.map Item.value) = [] := by
    simp
  have hlast : List.dropWhile (· != .previous) (.previous :: after.map Item.value)
      = .previous :: after.map .value := by
    simp
  rw [hfirst, hlast, List.append_nil, valuesOf_map_value]
  have hskip : valuesOf (.previous :: after.map .value) = valuesOf (after.map .value) := rfl
  rw [hskip, valuesOf_map_value]

/-- Of values, those that are not empty are shown. -/
theorem filterMap_shown_map_value (placeholder : Option String) (values : List String) :
    (values.map Item.value).filterMap (shown placeholder) = values.filter (· ≠ "") := by
  induction values with
  | nil =>
      rfl
  | cons text values ih =>
      by_cases h : text = "" <;> simp [shown, h, ih]

theorem flatten_of_values {v : Variable} {values : List String} (h : v.items = values.map .value)
    (hvalues : values ≠ []) (placeholder : Option String) (pathSeparator : String) :
    v.flatten placeholder pathSeparator
      = some ((v.joiner pathSeparator).intercalate (values.filter (· ≠ ""))) := by
  have hset : v.isUnset = false := by
    simp [isUnset, h, hvalues]
  rw [flatten, hset, h, filterMap_shown_map_value]
  rfl

theorem flatten_of_sides {v : Variable} {before after : List String}
    (h : v.items = before.map .value ++ .previous :: after.map .value)
    (outer pathSeparator : String) :
    v.flatten (some outer) pathSeparator
      = some ((v.joiner pathSeparator).intercalate
          (before.filter (· ≠ "") ++ outer :: after.filter (· ≠ ""))) := by
  have hset : v.isUnset = false := by
    simp [isUnset, h]
  have hshown : v.items.filterMap (shown (some outer))
      = before.filter (· ≠ "") ++ outer :: after.filter (· ≠ "") := by
    have houter : shown (some outer) .previous = some outer := rfl
    rw [h, List.filterMap_append, List.filterMap_cons_some houter, filterMap_shown_map_value,
      filterMap_shown_map_value]
  rw [flatten, hset, hshown]
  rfl

end Variable

end EnvLayers
