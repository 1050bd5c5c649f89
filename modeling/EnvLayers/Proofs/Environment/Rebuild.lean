import EnvLayers.Proofs.Environment.Resolve
import EnvLayers.Proofs.Variable

/-
Module: EnvLayers.Proofs.Environment.Rebuild
Purpose: The operations that rebuild an environment do so over any outer environment: each variable
  reads the same after they are layered onto nothing as it does in the environment itself.
Main exports: Variables.readOver, Environment.read_rebuilt,
  Environment.opsOn_flatMap_rebuildOps, Graph.toOps_rebuilds
-/

namespace EnvLayers

/-- The text of a name over an outer text. A name that has no variable keeps the outer text. -/
def Variables.readOver (vars : Variables) (pathSeparator name outer : String) : Option String :=
  match vars.find name with
  | some v => v.flatten (some outer) pathSeparator
  | none => some outer

namespace Environment

/-! ### Decorated operations -/

@[simp] theorem name_decorate (separator : Separator) (op : Op) :
    (decorate separator op).name = op.name := by
  cases separator with
  | path =>
      cases op <;> rfl
  | text joiner =>
      by_cases hspace : joiner = " "
      · rw [decorate, if_pos hspace]
      · rw [decorate, if_neg hspace]
        cases op <;> rfl

/-- An operation that is decorated with a separator puts its value where it did before. -/
theorem apply_decorate_put (v : Variable) (separator : Separator) (place : Placement)
    (name value : String) (h : v.separator = .default ∨ v.separator = separator) :
    v.apply (decorate separator (.put place name value false none))
      = ⟨v.name, Variable.placed v.items (.put place name value false none), separator⟩ := by
  cases separator with
  | path =>
      cases place <;> rfl
  | text joiner =>
      by_cases hspace : joiner = " "
      · have hkept : v.separator = .text joiner := by
          rcases h with h | h
          · rw [h, hspace]
            rfl
          · exact h
        rw [decorate, if_pos hspace, Variable.apply, ← hkept]
        rfl
      · rw [decorate, if_neg hspace]
        cases place <;> rfl

/-! ### Joined sides -/

theorem joined?_eq (joiner : String) (values : List String) :
    joined? joiner values
      = if values.filter (· ≠ "") = [] then none
        else some (joiner.intercalate (values.filter (· ≠ ""))) := by
  unfold joined?
  split
  · next h =>
      rw [if_pos h]
  · next hne =>
      rw [if_neg hne]

/-- A joined side stands for its values in any text that is joined in the same way. -/
theorem intercalate_joined? (joiner : String) (before after values : List String) :
    joiner.intercalate (before ++ (joined? joiner values).toList ++ after)
      = joiner.intercalate (before ++ values.filter (· ≠ "") ++ after) := by
  rw [joined?_eq]
  split
  · next h =>
      rw [h]
      rfl
  · next h =>
      rw [Option.toList_some, List.append_assoc, List.singleton_append,
        intercalate_collapse joiner before h]

theorem filter_joined? (joiner : String) (values : List String) :
    (joined? joiner values).toList.filter (· ≠ "") = (joined? joiner values).toList := by
  rw [joined?_eq]
  split
  · rfl
  · next h =>
      have hne := intercalate_ne_empty joiner h fun part hpart => by
        simpa using (List.mem_filter.mp hpart).2
      simpa using hne

theorem getD_joined? (joiner : String) (values : List String) :
    (joined? joiner values).getD "" = joiner.intercalate (values.filter (· ≠ "")) := by
  rw [joined?_eq]
  split
  · next h =>
      rw [h]
      rfl
  · rfl

/-! ### One variable -/

theorem name_of_mem_rebuildOps {pathSeparator : String} {v : Variable} {op : Op}
    (h : op ∈ rebuildOps pathSeparator v) : op.name = v.name := by
  unfold rebuildOps at h
  dsimp only at h
  split at h
  · rw [List.mem_singleton.mp h]
    rfl
  · split at h
    · rcases List.mem_append.mp h with h | h
      · obtain ⟨text, _, rfl⟩ := List.mem_map.mp h
        exact name_decorate _ _
      · obtain ⟨text, _, rfl⟩ := List.mem_map.mp h
        exact name_decorate _ _
    · rw [List.mem_singleton.mp h]
      exact name_decorate _ _

/-- The operations that rebuild a variable which keeps its outer value: what stands before the outer
value is prepended, and what stands after it appended. -/
theorem rebuildOps_of_sides (pathSeparator : String) {v : Variable} {before after : List String}
    (h : v.items = before.map .value ++ .previous :: after.map .value) :
    rebuildOps pathSeparator v
      = (joined? (v.joiner pathSeparator) before).toList.map
          (fun text => decorate v.separator (.prepend v.name text))
        ++ (joined? (v.joiner pathSeparator) after).toList.map
          fun text => decorate v.separator (.append v.name text) := by
  have hset : v.isUnset = false := by
    simp [Variable.isUnset, h]
  have hkeeps : v.keepsOuter = true := by
    simp [Variable.keepsOuter, h]
  simp [rebuildOps, hset, hkeeps, Variable.sides_of_sides h]

theorem rebuildOps_of_values (pathSeparator : String) {v : Variable} {values : List String}
    (h : v.items = values.map .value) (hvalues : values ≠ []) :
    rebuildOps pathSeparator v = [decorate v.separator
      (.define v.name ((joined? (v.joiner pathSeparator) values).getD ""))] := by
  have hset : v.isUnset = false := by
    simp [Variable.isUnset, h, hvalues]
  have hkeeps : v.keepsOuter = false := by
    simp [Variable.keepsOuter, h]
  simp [rebuildOps, hset, hkeeps, Variable.sides_of_values h]

/-- What a prepend and an append, where there are any, make of an untouched variable. -/
theorem applyAll_sides (name : String) (separator : Separator) (before after : Option String)
    (hany : before.isSome ∨ after.isSome) :
    (Variable.fresh name).applyAll
        (before.toList.map (fun text => decorate separator (.prepend name text))
          ++ after.toList.map fun text => decorate separator (.append name text))
      = ⟨name, before.toList.map .value ++ .previous :: after.toList.map .value, separator⟩ := by
  have hprepend : ∀ text, (Variable.fresh name).apply (decorate separator (.prepend name text))
      = ⟨name, [.value text, .previous], separator⟩ := fun text =>
    apply_decorate_put _ separator .prepend name text (.inl rfl)
  have happend : ∀ v : Variable, v.separator = .default ∨ v.separator = separator → ∀ text,
      v.apply (decorate separator (.append name text))
        = ⟨v.name, v.items ++ [.value text], separator⟩ := fun v hv text =>
    apply_decorate_put v separator .append name text hv
  cases before with
  | none =>
      cases after with
      | none =>
          simp at hany
      | some last =>
          exact happend _ (.inl rfl) last
  | some first =>
      cases after with
      | none =>
          exact hprepend first
      | some last =>
          simp only [Option.toList_some, List.map_cons, List.map_nil, List.singleton_append,
            Variable.applyAll, List.foldl_cons, List.foldl_nil, hprepend]
          exact happend ⟨name, [.value first, .previous], separator⟩ (.inr rfl) last

/-- A variable that keeps its outer value reads the same when it is rebuilt. Where nothing has to be
rebuilt, it reads as its outer text. -/
theorem read_rebuilt_sides {v : Variable} {before after : List String}
    (h : v.items = before.map .value ++ .previous :: after.map .value)
    (pathSeparator outer : String) :
    (if rebuildOps pathSeparator v = [] then some outer
      else ((Variable.fresh v.name).applyAll (rebuildOps pathSeparator v)).flatten (some outer)
        pathSeparator)
      = v.flatten (some outer) pathSeparator := by
  have hjoined := intercalate_joined? (v.joiner pathSeparator)
  have htext : v.flatten (some outer) pathSeparator
      = some ((v.joiner pathSeparator).intercalate
        ((joined? (v.joiner pathSeparator) before).toList
          ++ outer :: (joined? (v.joiner pathSeparator) after).toList)) := by
    have hbefore := hjoined [] (outer :: after.filter (· ≠ "")) before
    have hafter := hjoined ((joined? (v.joiner pathSeparator) before).toList ++ [outer]) [] after
    simp only [List.nil_append, List.append_nil, List.append_assoc, List.singleton_append] at *
    rw [Variable.flatten_of_sides h, ← hbefore, hafter]
  rw [htext, rebuildOps_of_sides pathSeparator h]
  by_cases hany : (joined? (v.joiner pathSeparator) before).isSome
      ∨ (joined? (v.joiner pathSeparator) after).isSome
  · rw [applyAll_sides v.name v.separator _ _ hany, if_neg, Variable.flatten_of_sides rfl,
      filter_joined?, filter_joined?]
    · rfl
    · rcases hany with hany | hany
      · obtain ⟨text, htext⟩ := Option.isSome_iff_exists.mp hany
        simp [htext]
      · obtain ⟨text, htext⟩ := Option.isSome_iff_exists.mp hany
        simp [htext]
  · simp only [not_or, Option.not_isSome_iff_eq_none] at hany
    simp [hany.1, hany.2]

/-- A variable without its outer value reads the same when it is rebuilt. -/
theorem read_rebuilt_values {v : Variable} {values : List String}
    (h : v.items = values.map .value) (pathSeparator outer : String) :
    (if rebuildOps pathSeparator v = [] then some outer
      else ((Variable.fresh v.name).applyAll (rebuildOps pathSeparator v)).flatten (some outer)
        pathSeparator)
      = v.flatten (some outer) pathSeparator := by
  by_cases hvalues : values = []
  · have hunset : v.isUnset = true := by
      simp [Variable.isUnset, h, hvalues]
    have hops : rebuildOps pathSeparator v = [.unset v.name] := by
      simp [rebuildOps, hunset]
    have hnone : v.flatten (some outer) pathSeparator = none := by
      simp [Variable.flatten, hunset]
    rw [hops, hnone]
    rfl
  · have hmade : (Variable.fresh v.name).applyAll (rebuildOps pathSeparator v)
        = ⟨v.name, [.value ((joined? (v.joiner pathSeparator) values).getD "")], v.separator⟩ := by
      rw [rebuildOps_of_values pathSeparator h hvalues]
      exact apply_decorate_put _ v.separator .define v.name _ (.inl rfl)
    have hops : rebuildOps pathSeparator v ≠ [] := by
      simp [rebuildOps_of_values pathSeparator h hvalues]
    rw [if_neg hops, hmade, Variable.flatten_of_values h hvalues,
      Variable.flatten_of_values (List.map_singleton.symm) (List.cons_ne_nil _ _),
      intercalate_filter_singleton, getD_joined?]

theorem read_rebuilt {v : Variable} (h : v.SingleOuter) (pathSeparator outer : String) :
    (if rebuildOps pathSeparator v = [] then some outer
      else ((Variable.fresh v.name).applyAll (rebuildOps pathSeparator v)).flatten (some outer)
        pathSeparator)
      = v.flatten (some outer) pathSeparator := by
  by_cases hkeeps : v.keepsOuter
  · obtain ⟨before, after, hitems⟩ := h.exists_sides hkeeps
    exact read_rebuilt_sides hitems pathSeparator outer
  · obtain ⟨values, hitems⟩ := Variable.exists_values_of_not_keepsOuter hkeeps
    exact read_rebuilt_values hitems pathSeparator outer

/-! ### The whole environment -/

theorem name_mem_of_mem_toOps {env : Environment} {op : Op} (h : op ∈ env.toOps) :
    op.name ∈ env.names := by
  obtain ⟨v, hv, hop⟩ := List.mem_flatMap.mp h
  exact List.mem_map.mpr ⟨v, hv, (name_of_mem_rebuildOps hop).symm⟩

theorem opsOn_rebuildOps_self (pathSeparator : String) (v : Variable) :
    opsOn v.name (rebuildOps pathSeparator v) = rebuildOps pathSeparator v := by
  refine List.filter_eq_self.mpr fun op hop => ?_
  simpa using name_of_mem_rebuildOps hop

theorem opsOn_rebuildOps_of_ne {v : Variable} {name : String} (h : v.name ≠ name)
    (pathSeparator : String) : opsOn name (rebuildOps pathSeparator v) = [] :=
  opsOn_eq_nil fun _ hop => name_of_mem_rebuildOps hop ▸ h

/-- Each name has its operations from its one variable. -/
theorem opsOn_flatMap_rebuildOps {vars : Variables} (pathSeparator : String)
    (hnodup : vars.names.Nodup) {v : Variable} (hv : v ∈ vars) :
    opsOn v.name (vars.flatMap (rebuildOps pathSeparator)) = rebuildOps pathSeparator v := by
  induction vars with
  | nil =>
      cases hv
  | cons w rest ih =>
      obtain ⟨hnew, hrest⟩ := List.nodup_cons.mp hnodup
      rw [List.flatMap_cons, opsOn_append]
      rcases List.mem_cons.mp hv with rfl | hv
      · have hnone : opsOn v.name (rest.flatMap (rebuildOps pathSeparator)) = [] := by
          refine opsOn_eq_nil fun op hop hname => hnew ?_
          obtain ⟨u, hu, hop⟩ := List.mem_flatMap.mp hop
          exact List.mem_map.mpr ⟨u, hu, (name_of_mem_rebuildOps hop).symm.trans hname⟩
        rw [opsOn_rebuildOps_self, hnone, List.append_nil]
      · have hne : w.name ≠ v.name := fun heq => hnew (List.mem_map.mpr ⟨v, hv, heq.symm⟩)
        rw [opsOn_rebuildOps_of_ne hne, List.nil_append]
        exact ih hrest hv

/-- Every variable of a resolved environment keeps its outer value at most once. -/
theorem singleOuter_of_resolve {g : Graph} {consumer : String} {scope : Scope}
    {profiles : List Profile} {env : Environment}
    (h : g.resolve consumer scope profiles = .ok env) {v : Variable} (hv : v ∈ env.vars) :
    v.SingleOuter := by
  obtain ⟨_, ops, _, _, rfl⟩ := Graph.exists_sequence_of_resolve h
  have hfind := Variables.find_of_mem (Environment.names_nodup _) hv
  rw [Graph.ofOps, Variables.find_applyAll_nil] at hfind
  split at hfind
  · rw [← Option.some.inj hfind]
    exact (Variable.singleOuter_fresh v.name).applyAll _
  · cases hfind

end Environment

/-- The operations that rebuild a resolved environment do so over any outer text of each of its
variables, and touch no other variable. -/
theorem Graph.toOps_rebuilds {g : Graph} {consumer : String} {scope : Scope}
    {profiles : List Profile} {env : Environment}
    (h : g.resolve consumer scope profiles = .ok env) :
    (∀ name ∈ env.names, ∀ outer,
      (Variables.applyAll [] env.toOps).readOver env.pathSeparator name outer
        = env.getOver? name outer)
      ∧ ∀ name ∈ (Variables.applyAll [] env.toOps).names, name ∈ env.names := by
  constructor
  · intro name hname outer
    obtain ⟨v, hv, rfl⟩ := List.mem_map.mp hname
    have hops : opsOn v.name env.toOps = Environment.rebuildOps env.pathSeparator v :=
      Environment.opsOn_flatMap_rebuildOps env.pathSeparator env.names_nodup hv
    rw [Environment.getOver?, Environment.find?, Variables.find_of_mem env.names_nodup hv,
      Option.bind_some,
      ← Environment.read_rebuilt (Environment.singleOuter_of_resolve h hv) env.pathSeparator outer,
      Variables.readOver, Variables.find_applyAll, hops]
    by_cases hnone : Environment.rebuildOps env.pathSeparator v = []
    · rw [if_pos hnone, if_pos hnone]
      rfl
    · rw [if_neg hnone, if_neg hnone]
      rfl
  · intro name hname
    rw [Variables.names_applyAll_nil, List.mem_eraseDups] at hname
    obtain ⟨op, hop, rfl⟩ := List.mem_map.mp hname
    exact Environment.name_mem_of_mem_toOps hop

theorem Graph.toOps_rebuilds_toolchain :
    toolchain.resolve "app" .build [] = .ok toolchainBuild
      ∧ (Variables.applyAll [] toolchainBuild.toOps).readOver toolchainBuild.pathSeparator
        "TRACE" "zip" = some "zlib zip cc"
      ∧ (Variables.applyAll [] toolchainBuild.toOps).readOver toolchainBuild.pathSeparator
        "DEBUG" "zip" = none := by
  have hread := (toOps_rebuilds resolve_toolchain).1
  exact ⟨resolve_toolchain, hread "TRACE" (by decide) "zip", hread "DEBUG" (by decide) "zip"⟩

end EnvLayers
