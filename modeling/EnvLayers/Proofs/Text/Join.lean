import Mathlib.Data.List.Forall2

/-
Module: EnvLayers.Proofs.Text.Join
Purpose: Texts and lists joined from parts.
Main exports: intercalate_collapse, intercalate_ne_empty, intercalate_filter_singleton,
  intercalate_rel, forall_mem_intercalate
-/

namespace EnvLayers

/-- A part of a text that is itself joined from parts can be written as those parts. -/
theorem intercalate_collapse (joiner : String) (before : List String) {parts : List String}
    (hparts : parts ≠ []) (after : List String) :
    joiner.intercalate (before ++ joiner.intercalate parts :: after)
      = joiner.intercalate (before ++ parts ++ after) := by
  induction before with
  | nil =>
      rw [List.nil_append, List.nil_append]
      by_cases hafter : after = []
      · simp [hafter]
      · rw [String.intercalate_cons_of_ne_nil hafter,
          String.intercalate_append_of_ne_nil hparts hafter]
  | cons part before ih =>
      rw [List.cons_append, String.intercalate_cons_of_ne_nil (by simp), ih, List.cons_append,
        List.cons_append, String.intercalate_cons_of_ne_nil (by simp [hparts])]

theorem intercalate_ne_empty (joiner : String) {parts : List String} (hparts : parts ≠ [])
    (h : ∀ part ∈ parts, part ≠ "") : joiner.intercalate parts ≠ "" := by
  cases parts with
  | nil =>
      exact absurd rfl hparts
  | cons part rest =>
      have hpart := h part List.mem_cons_self
      by_cases hrest : rest = []
      · simpa [hrest] using hpart
      · rw [String.intercalate_cons_of_ne_nil hrest]
        simp [String.append_eq_empty_iff, hpart]

theorem intercalate_filter_singleton (joiner text : String) :
    joiner.intercalate ([text].filter (· ≠ "")) = text := by
  by_cases h : text = "" <;> simp [h]

theorem forall₂_filterMap {α β γ : Type} {R : β → γ → Prop} {f : α → Option β} {g : α → Option γ}
    (h : ∀ x, Option.Rel R (f x) (g x)) (xs : List α) :
    List.Forall₂ R (xs.filterMap f) (xs.filterMap g) := by
  have heq : Relator.LiftFun Eq (Option.Rel R) f g := by
    rintro x _ rfl
    exact h x
  exact List.rel_filterMap heq (List.forall₂_refl xs)

/-- What appending keeps related, joining keeps related. -/
theorem intercalate_rel {α β : Type} {R : List α → List β → Prop} (hnil : R [] [])
    (happend : ∀ {xs ys xs' ys'}, R xs ys → R xs' ys' → R (xs ++ xs') (ys ++ ys'))
    {joiner : List α} {joiner' : List β} (hjoiner : R joiner joiner')
    {parts : List (List α)} {parts' : List (List β)} (h : List.Forall₂ R parts parts') :
    R (joiner.intercalate parts) (joiner'.intercalate parts') := by
  induction h with
  | nil =>
      exact hnil
  | cons hfirst hrest ih =>
      cases hrest with
      | nil =>
          simpa using hfirst
      | cons hsecond hrest =>
          rw [List.intercalate_cons_cons, List.intercalate_cons_cons]
          exact happend (happend hfirst hjoiner) ih

theorem forall_mem_intercalate {α : Type} {P : α → Prop} {joiner : List α}
    {parts : List (List α)} (hjoiner : ∀ x ∈ joiner, P x) (h : ∀ part ∈ parts, ∀ x ∈ part, P x) :
    ∀ x ∈ joiner.intercalate parts, P x := by
  induction parts with
  | nil =>
      simp
  | cons part rest ih =>
      have hpart := h part List.mem_cons_self
      have hrest := ih fun other hother => h other (List.mem_cons_of_mem _ hother)
      cases rest with
      | nil =>
          simpa using hpart
      | cons second rest =>
          rw [List.intercalate_cons_cons]
          exact List.forall_mem_append.mpr ⟨List.forall_mem_append.mpr ⟨hpart, hjoiner⟩, hrest⟩

end EnvLayers
