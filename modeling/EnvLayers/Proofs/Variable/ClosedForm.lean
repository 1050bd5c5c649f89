import EnvLayers.Proofs.Environment.Fold
import EnvLayers.Proofs.Variable
import Mathlib.Data.List.DropRight

/-
Module: EnvLayers.Proofs.Variable.ClosedForm
Purpose: What any sequence of operations makes of a variable, said without running it: its entries
  follow from the last define or unset and the operations behind that one, its separator from the
  last operation that declares one. An operation added at the end changes the closed form as it
  changes the variable.
Main exports: Op.Declares, sinceReset, lastReset?, valuesPut, baseOf, Variable.MadeBy,
  Variable.madeBy_applyAll
-/

namespace EnvLayers

/-! ### The closed form -/

/-- The separator that an operation declares. On a path list a declared text does not count. -/
inductive Op.Declares : Op → Separator → Prop where
  | path (place : Placement) (name value : String) (joiner : Option String) :
      Declares (.put place name value true joiner) .path
  | text (place : Placement) (name value joiner : String) :
      Declares (.put place name value false (some joiner)) (.text joiner)

/-- The last define or unset among some operations. -/
def lastReset? (ops : List Op) : Option Op := (ops.filter (·.resets)).getLast?

/-- The operations behind the last define or unset. -/
def sinceReset (ops : List Op) : List Op := ops.rtakeWhile (!·.resets)

/-- The values that operations put in one place, in order. -/
def valuesPut (place : Placement) (ops : List Op) : List String :=
  ops.filterMap fun
    | .put p _ value _ _ => if p = place then some value else none
    | .unset _ => none

/-- The entries right behind the last define or unset, and those of an untouched variable. -/
def baseOf : Option Op → List Item
  | none => [.previous]
  | some (.put _ _ value _ _) => [.value value]
  | some (.unset _) => []

namespace Variable

/-- A variable is what operations make of an untouched one. -/
structure MadeBy (v : Variable) (name : String) (ops : List Op) : Prop where
  name_eq : v.name = name
  items_eq : v.items = (valuesPut .prepend (sinceReset ops)).reverse.map .value
    ++ baseOf (lastReset? ops) ++ (valuesPut .append (sinceReset ops)).map .value
  /-- The last operation that declares a separator has declared the one in force. -/
  separator_declared : ∀ before op after separator, ops = before ++ op :: after →
    op.Declares separator → (∀ later ∈ after, ∀ other, ¬ later.Declares other) →
    v.separator = separator
  separator_default : (∀ op ∈ ops, ∀ separator, ¬ op.Declares separator) → v.separator = .text " "
  count_previous_le : v.items.count .previous ≤ 1
  keepsOuter_iff : v.keepsOuter = true ↔ ∀ op ∈ ops, op.resets = false
  isUnset_iff : v.isUnset = true
    ↔ (∃ unset, lastReset? ops = some (.unset unset)) ∧ sinceReset ops = []
  /-- The two sides hold all values, with the outer value between them where it is kept. -/
  items_sides : v.items = v.sides.1.map .value ++ (if v.keepsOuter then [.previous] else [])
    ++ v.sides.2.map .value
  sides_snd_eq_nil : v.keepsOuter = false → v.sides.2 = []

variable {v : Variable} {name : String} {ops : List Op} {op : Op}

/-! ### One more operation -/

theorem lastReset?_concat_of_resets (h : op.resets = true) (ops : List Op) :
    lastReset? (ops ++ [op]) = some op := by
  rw [lastReset?, List.filter_append, List.filter_singleton, h, Bool.cond_true,
    List.getLast?_concat]

theorem lastReset?_concat_of_not_resets (h : op.resets = false) (ops : List Op) :
    lastReset? (ops ++ [op]) = lastReset? ops := by
  rw [lastReset?, List.filter_append, List.filter_singleton, h, Bool.cond_false, List.append_nil,
    lastReset?]

theorem sinceReset_concat_of_resets (h : op.resets = true) (ops : List Op) :
    sinceReset (ops ++ [op]) = [] :=
  List.rtakeWhile_concat_neg _ _ _ (by simp [h])

theorem sinceReset_concat_of_not_resets (h : op.resets = false) (ops : List Op) :
    sinceReset (ops ++ [op]) = sinceReset ops ++ [op] :=
  List.rtakeWhile_concat_pos _ _ _ (by simp [h])

/-- Nothing behind the last define or unset is one. -/
theorem resets_of_mem_sinceReset (h : op ∈ sinceReset ops) : op.resets = false := by
  simpa using List.mem_rtakeWhile_imp h

theorem lastReset?_eq_none_iff : lastReset? ops = none ↔ ∀ op ∈ ops, op.resets = false := by
  simp [lastReset?]

/-! ### Entries -/

theorem items_applyAll_fresh (name : String) (ops : List Op) :
    ((fresh name).applyAll ops).items
      = (valuesPut .prepend (sinceReset ops)).reverse.map .value
        ++ baseOf (lastReset? ops) ++ (valuesPut .append (sinceReset ops)).map .value := by
  -- The operation at the end is the one that shows: a reset starts anew, and of the others each
  -- adds to one of the two ends.
  induction ops using List.reverseRecOn with
  | nil =>
      rfl
  | append_singleton ops op ih =>
      rw [applyAll_concat, apply]
      cases op with
      | put place var value isPath separator =>
          cases place with
          | define =>
              rw [lastReset?_concat_of_resets rfl, sinceReset_concat_of_resets rfl]
              rfl
          | append =>
              rw [lastReset?_concat_of_not_resets rfl, sinceReset_concat_of_not_resets rfl]
              simp [placed, ih, valuesPut]
          | prepend =>
              rw [lastReset?_concat_of_not_resets rfl, sinceReset_concat_of_not_resets rfl]
              simp [placed, ih, valuesPut]
      | unset var =>
          rw [lastReset?_concat_of_resets rfl, sinceReset_concat_of_resets rfl]
          rfl

/-- An operation that is no reset puts its value at one of the ends. -/
theorem valuesPut_eq_nil_iff (h : ∀ op ∈ ops, op.resets = false) :
    valuesPut .prepend ops = [] ∧ valuesPut .append ops = [] ↔ ops = [] := by
  constructor
  · intro hnil
    cases ops with
    | nil =>
        rfl
    | cons op ops =>
        have hop := h op List.mem_cons_self
        cases op with
        | put place var value isPath separator =>
            cases place with
            | define =>
                cases hop
            | append =>
                exact absurd hnil.2 (by simp [valuesPut])
            | prepend =>
                exact absurd hnil.1 (by simp [valuesPut])
        | unset var =>
            cases hop
  · rintro rfl
    exact ⟨rfl, rfl⟩

theorem previous_mem_baseOf_iff {reset : Option Op} :
    .previous ∈ baseOf reset ↔ reset = none := by
  rcases reset with _ | (_ | _) <;> simp [baseOf]

theorem baseOf_eq_nil_iff {reset : Option Op} :
    baseOf reset = [] ↔ ∃ unset, reset = some (.unset unset) := by
  rcases reset with _ | (_ | _) <;> simp [baseOf]

/-- The outer value is kept as long as nothing was defined or unset. -/
theorem keepsOuter_applyAll_fresh (name : String) (ops : List Op) :
    ((fresh name).applyAll ops).keepsOuter = true ↔ ∀ op ∈ ops, op.resets = false := by
  have hvalue : ∀ values : List String, .previous ∉ values.map Item.value := by
    simp
  rw [keepsOuter, List.contains_iff_mem, items_applyAll_fresh, List.mem_append, List.mem_append,
    previous_mem_baseOf_iff, lastReset?_eq_none_iff]
  have hfirst := hvalue (valuesPut .prepend (sinceReset ops)).reverse
  have hlast := hvalue (valuesPut .append (sinceReset ops))
  tauto

/-- A variable is unset by an unset that nothing was added behind. -/
theorem isUnset_applyAll_fresh (name : String) (ops : List Op) :
    ((fresh name).applyAll ops).isUnset = true
      ↔ (∃ unset, lastReset? ops = some (.unset unset)) ∧ sinceReset ops = [] := by
  have hsince := valuesPut_eq_nil_iff fun op (hop : op ∈ sinceReset ops) =>
    resets_of_mem_sinceReset hop
  rw [isUnset, List.isEmpty_iff, items_applyAll_fresh, List.append_eq_nil_iff,
    List.append_eq_nil_iff, baseOf_eq_nil_iff, List.map_eq_nil_iff, List.map_eq_nil_iff,
    List.reverse_eq_nil_iff, ← hsince]
  tauto

/-! ### Sides -/

theorem SingleOuter.items_sides (h : v.SingleOuter) :
    v.items = v.sides.1.map .value ++ (if v.keepsOuter then [.previous] else [])
      ++ v.sides.2.map .value := by
  cases hkeeps : v.keepsOuter with
  | true =>
      obtain ⟨before, after, hitems⟩ := h.exists_sides hkeeps
      rw [sides_of_sides hitems, hitems]
      simp
  | false =>
      obtain ⟨values, hitems⟩ := exists_values_of_not_keepsOuter (Bool.eq_false_iff.mp hkeeps)
      rw [sides_of_values hitems, hitems]
      simp

theorem sides_snd_of_not_keepsOuter (h : v.keepsOuter = false) : v.sides.2 = [] := by
  obtain ⟨values, hitems⟩ := exists_values_of_not_keepsOuter (Bool.eq_false_iff.mp h)
  rw [sides_of_values hitems]

/-! ### The separator -/

theorem separator_eq_some_iff {separator : Separator} :
    op.separator = some separator ↔ op.Declares separator := by
  constructor
  · intro h
    rcases op with ⟨place, var, value, _ | _, _ | joiner⟩ | _ <;> cases h <;> constructor
  · rintro (_ | _) <;> rfl

theorem separator_apply_of_not_declares (h : ∀ separator, ¬ op.Declares separator)
    (v : Variable) : (v.apply op).separator = v.separator := by
  have hnone : op.separator = none :=
    Option.eq_none_iff_forall_ne_some.mpr fun separator => mt separator_eq_some_iff.mp (h separator)
  rw [apply, hnone, Option.getD_none]

theorem separator_applyAll_of_not_declares
    (h : ∀ op ∈ ops, ∀ separator, ¬ op.Declares separator) (v : Variable) :
    (v.applyAll ops).separator = v.separator := by
  induction ops generalizing v with
  | nil =>
      rfl
  | cons op ops ih =>
      obtain ⟨hop, hops⟩ := List.forall_mem_cons.mp h
      have hstep : v.applyAll (op :: ops) = (v.apply op).applyAll ops := rfl
      rw [hstep, ih hops, separator_apply_of_not_declares hop]

/-- The last operation that declares a separator decides, a reset or not. -/
theorem separator_applyAll_of_declares {separator : Separator} (h : op.Declares separator)
    {after : List Op} (hlast : ∀ later ∈ after, ∀ other, ¬ later.Declares other) (v : Variable)
    (before : List Op) : (v.applyAll (before ++ op :: after)).separator = separator := by
  have hsplit : v.applyAll (before ++ op :: after)
      = ((v.applyAll before).apply op).applyAll after := by
    rw [applyAll, List.foldl_append, List.foldl_cons, applyAll, applyAll]
  rw [hsplit, separator_applyAll_of_not_declares hlast, apply, separator_eq_some_iff.mpr h,
    Option.getD_some]

/-! ### The whole variable -/

/-- Operations on an untouched variable make what the closed form says: the entries come from the
last define or unset and from what was added to both ends behind it, the separator from the last
operation of all that declares one. -/
theorem madeBy_applyAll (name : String) (ops : List Op) :
    ((fresh name).applyAll ops).MadeBy name ops where
  name_eq := name_applyAll (fresh name) ops
  items_eq := items_applyAll_fresh name ops
  separator_declared := by
    rintro before op after separator rfl hdeclares hlast
    exact separator_applyAll_of_declares hdeclares hlast (fresh name) before
  separator_default h := separator_applyAll_of_not_declares h (fresh name)
  count_previous_le := (singleOuter_fresh name).applyAll ops
  keepsOuter_iff := keepsOuter_applyAll_fresh name ops
  isUnset_iff := isUnset_applyAll_fresh name ops
  items_sides := ((singleOuter_fresh name).applyAll ops).items_sides
  sides_snd_eq_nil := sides_snd_of_not_keepsOuter

end Variable

end EnvLayers
