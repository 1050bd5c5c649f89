import EnvLayers.Environment.Basic
import EnvLayers.Proofs.FirstSeen

/-
Module: EnvLayers.Proofs.Environment.Fold
Purpose: Layering operations onto a collection of variables, seen from one name: the variable of the
  name is what the operations on that name make of it, whatever stands between them, and the
  variables stand in the order in which their names were first met.
Main exports: opsOn, Variables.find_applyAll, Variables.names_applyAll, Variables.find_applyAll_nil,
  Op.resets, replayed, replayed_append_of_resets
-/

namespace EnvLayers

/-- The operations on a name, in order. -/
def opsOn (name : String) (ops : List Op) : List Op := ops.filter (·.name = name)

theorem opsOn_cons_self (op : Op) (ops : List Op) :
    opsOn op.name (op :: ops) = op :: opsOn op.name ops := by
  simp [opsOn]

theorem opsOn_cons_of_ne {op : Op} {name : String} (h : op.name ≠ name) (ops : List Op) :
    opsOn name (op :: ops) = opsOn name ops := by
  simp [opsOn, h]

theorem opsOn_eq_nil_iff {name : String} {ops : List Op} :
    opsOn name ops = [] ↔ name ∉ ops.map (·.name) := by
  simp [opsOn]

theorem opsOn_append (name : String) (first second : List Op) :
    opsOn name (first ++ second) = opsOn name first ++ opsOn name second :=
  List.filter_append ..

theorem opsOn_flatMap {α : Type} (name : String) (xs : List α) (ops : α → List Op) :
    opsOn name (xs.flatMap ops) = xs.flatMap fun x => opsOn name (ops x) :=
  List.filter_flatMap

theorem opsOn_eq_nil {name : String} {ops : List Op} (h : ∀ op ∈ ops, op.name ≠ name) :
    opsOn name ops = [] :=
  List.filter_eq_nil_iff.mpr fun op hop => by simpa using h op hop

/-- What brings nothing can be left out. -/
theorem flatMap_filter_ne_nil {α β : Type} [DecidableEq β] (f : α → List β) (xs : List α) :
    (xs.filter (f · ≠ [])).flatMap f = xs.flatMap f := by
  induction xs with
  | nil =>
      rfl
  | cons x xs ih =>
      by_cases h : f x = []
      · rw [List.filter_cons_of_neg (by simpa using h), ih, List.flatMap_cons, h, List.nil_append]
      · rw [List.filter_cons_of_pos (by simpa using h), List.flatMap_cons, ih, List.flatMap_cons]

@[simp] theorem Variable.name_apply (v : Variable) (op : Op) : (v.apply op).name = v.name := rfl

theorem Variable.name_applyAll (v : Variable) (ops : List Op) :
    (v.applyAll ops).name = v.name := by
  induction ops generalizing v with
  | nil =>
      rfl
  | cons op ops ih =>
      exact ih (v.apply op)

theorem Variable.applyAll_concat (v : Variable) (ops : List Op) (op : Op) :
    v.applyAll (ops ++ [op]) = (v.applyAll ops).apply op := by
  rw [applyAll, List.foldl_append, List.foldl_cons, List.foldl_nil, applyAll]

namespace Variables

variable {vars : Variables} {name : String}

theorem mem_names_iff : name ∈ vars.names ↔ ∃ v, vars.find name = some v := by
  rw [← Option.isSome_iff_exists]
  simp [names, find]

theorem find_eq_none_iff : vars.find name = none ↔ name ∉ vars.names := by
  rw [mem_names_iff, Option.eq_none_iff_forall_ne_some, not_exists]

/-- Where a name has one variable, each variable is found under its own name. -/
theorem find_of_mem {v : Variable} (h : vars.names.Nodup) (hv : v ∈ vars) :
    vars.find v.name = some v := by
  induction vars with
  | nil =>
      cases hv
  | cons w rest ih =>
      have hrest := List.nodup_cons.mp h
      rcases List.mem_cons.mp hv with rfl | hv
      · simp [find]
      · have hne : w.name ≠ v.name := fun heq => hrest.1 (List.mem_map.mpr ⟨v, hv, heq.symm⟩)
        simpa [find, hne] using ih hrest.2 hv

/-! ### One operation -/

theorem find_apply_self (vars : Variables) (op : Op) :
    (vars.apply op).find op.name
      = some (((vars.find op.name).getD (.fresh op.name)).apply op) := by
  induction vars with
  | nil =>
      simp [apply, find, Variable.fresh]
  | cons v rest ih =>
      by_cases h : v.name = op.name
      · simp [apply, find, h]
      · simpa [apply, find, h] using ih

theorem find_apply_of_ne {op : Op} (h : op.name ≠ name) (vars : Variables) :
    (vars.apply op).find name = vars.find name := by
  induction vars with
  | nil =>
      simp [apply, find, Variable.fresh, h]
  | cons v rest ih =>
      by_cases hv : v.name = op.name
      · simp [apply, find, hv, h]
      · simp only [find] at ih
        simp [apply, find, hv, List.find?_cons, ih]

/-! ### Many operations -/

theorem applyAll_append (vars : Variables) (first second : List Op) :
    vars.applyAll (first ++ second) = (vars.applyAll first).applyAll second :=
  List.foldl_append

/-- The variable of a name depends on the operations on that name alone. -/
theorem find_applyAll (vars : Variables) (ops : List Op) (name : String) :
    (vars.applyAll ops).find name
      = if opsOn name ops = [] then vars.find name
        else some (((vars.find name).getD (.fresh name)).applyAll (opsOn name ops)) := by
  induction ops generalizing vars with
  | nil =>
      rfl
  | cons op ops ih =>
      have hstep : (vars.applyAll (op :: ops)) = (vars.apply op).applyAll ops := rfl
      rw [hstep, ih]
      by_cases h : op.name = name
      · subst h
        rw [opsOn_cons_self, find_apply_self, if_neg (List.cons_ne_nil _ _)]
        split
        · next hnone =>
            rw [hnone]
            rfl
        · rfl
      · rw [opsOn_cons_of_ne h, find_apply_of_ne h]

/-- The names stand in the order in which operations meet them. -/
theorem names_applyAll (vars : Variables) (ops : List Op) :
    (vars.applyAll ops).names = vars.names ++ newTo vars.names (ops.map (·.name)) := by
  induction ops generalizing vars with
  | nil =>
      simp [applyAll]
  | cons op ops ih =>
      have hstep : (vars.applyAll (op :: ops)) = (vars.apply op).applyAll ops := rfl
      rw [hstep, ih, names_apply, List.map_cons]
      split
      · next hold =>
          rw [newTo_cons_of_mem hold]
      · next hnew =>
          rw [newTo_cons_of_not_mem hnew, List.append_assoc, List.singleton_append]

/-- A name that operations on no variables have met holds just what they make of it. -/
theorem find_applyAll_nil (ops : List Op) (name : String) :
    (applyAll [] ops).find name
      = if name ∈ ops.map (·.name) then some ((Variable.fresh name).applyAll (opsOn name ops))
        else none := by
  rw [find_applyAll]
  by_cases h : opsOn name ops = []
  · rw [if_pos h, if_neg (opsOn_eq_nil_iff.mp h)]
    rfl
  · rw [if_neg h, if_pos (Classical.not_not.mp (mt opsOn_eq_nil_iff.mpr h))]
    rfl

theorem names_applyAll_nil (ops : List Op) :
    (applyAll [] ops).names = (ops.map (·.name)).eraseDups := by
  rw [names_applyAll]
  exact nil_newTo _

end Variables

/-! ### Resets -/

/-- The operation replaces whatever its variable held. -/
def Op.resets : Op → Bool
  | .put place _ _ _ _ => place == .define
  | .unset _ => true

/-- The entries that operations give to a variable of a name. -/
def replayed (name : String) (ops : List Op) : List Item :=
  (opsOn name ops).foldl Variable.placed [.previous]

theorem replayed_congr {name : String} {ops ops' : List Op} (h : opsOn name ops' = opsOn name ops) :
    replayed name ops' = replayed name ops := by
  rw [replayed, replayed, h]

theorem Variable.items_applyAll (v : Variable) (ops : List Op) :
    (v.applyAll ops).items = ops.foldl placed v.items := by
  induction ops generalizing v with
  | nil =>
      rfl
  | cons op ops ih =>
      exact ih (v.apply op)

theorem Variables.items_find_applyAll_nil (ops : List Op) (name : String) :
    ((applyAll [] ops).find name).map (·.items)
      = if name ∈ ops.map (·.name) then some (replayed name ops) else none := by
  rw [find_applyAll_nil]
  split
  · rw [Option.map_some, Variable.items_applyAll]
    rfl
  · rfl

theorem placed_of_resets {op : Op} (h : op.resets) (items items' : List Item) :
    Variable.placed items op = Variable.placed items' op := by
  cases op with
  | put place name value isPath separator =>
      cases place with
      | define =>
          rfl
      | append =>
          cases h
      | prepend =>
          cases h
  | unset name =>
      rfl

/-- After a reset nothing shows of what a variable held before. -/
theorem foldl_placed_of_resets {ops : List Op} (h : ∃ op ∈ ops, op.resets)
    (items items' : List Item) :
    ops.foldl Variable.placed items = ops.foldl Variable.placed items' := by
  induction ops generalizing items items' with
  | nil =>
      obtain ⟨op, hop, -⟩ := h
      cases hop
  | cons op ops ih =>
      rw [List.foldl_cons, List.foldl_cons]
      by_cases hrest : ∃ op ∈ ops, op.resets
      · exact ih hrest _ _
      · obtain ⟨other, hother, hresets⟩ := h
        rcases List.mem_cons.mp hother with rfl | hother
        · rw [placed_of_resets hresets items items']
        · exact absurd ⟨other, hother, hresets⟩ hrest

/-- What stands before operations that reset a variable does not show in it. -/
theorem replayed_append_of_resets {name : String} {ops : List Op}
    (h : ∃ op ∈ ops, op.name = name ∧ op.resets) (before : List Op) :
    replayed name (before ++ ops) = replayed name ops := by
  have hon : ∃ op ∈ opsOn name ops, op.resets := by
    obtain ⟨op, hop, hname, hresets⟩ := h
    exact ⟨op, List.mem_filter.mpr ⟨hop, decide_eq_true hname⟩, hresets⟩
  rw [replayed, opsOn_append, List.foldl_append]
  exact foldl_placed_of_resets hon _ _

/-- A variable holds what operations that reset it make of it, whatever stands before them. -/
theorem Variables.items_find_applyAll_of_resets {name : String} {ops : List Op}
    (h : ∃ op ∈ ops, op.name = name ∧ op.resets) (before : List Op) :
    ((applyAll [] (before ++ ops)).find name).map (·.items) = some (replayed name ops) := by
  have hmem : name ∈ (before ++ ops).map (·.name) := by
    obtain ⟨op, hop, hname, -⟩ := h
    exact List.mem_map.mpr ⟨op, List.mem_append_right _ hop, hname⟩
  rw [items_find_applyAll_nil, if_pos hmem, replayed_append_of_resets h]

end EnvLayers
