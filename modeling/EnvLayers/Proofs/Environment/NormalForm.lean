import EnvLayers.Proofs.Environment.OwnParts
import EnvLayers.Proofs.Environment.Rebuild

/-
Module: EnvLayers.Proofs.Environment.NormalForm
Purpose: The operations that rebuild an environment are a normal form: a variable that they make is
  rebuilt by the same operations again, so a consumer that runs with nothing but them has an
  environment with the same operations.
Main exports: Environment.rebuilt, Environment.rebuildOps_rebuilt, Environment.RebuildsName,
  Variables.applyAll_flatMap_rebuildOps, Graph.RunsOn, Graph.toOps_normal
-/

namespace EnvLayers

namespace Environment

/-! ### One variable -/

/-- The variable that the operations which rebuild `v` make of an untouched one. -/
def rebuilt (pathSeparator : String) (v : Variable) : Variable :=
  (Variable.fresh v.name).applyAll (rebuildOps pathSeparator v)

@[simp] theorem name_rebuilt (pathSeparator : String) (v : Variable) :
    (rebuilt pathSeparator v).name = v.name :=
  Variable.name_applyAll ..

/-- Operations that rebuild the variable of a name: one unset, one define, or at most one prepend
and then at most one append. Where there are two, they declare the same separator. -/
inductive RebuildsName (name : String) : List Op → Prop where
  | unset : RebuildsName name [.unset name]
  | define (separator : Separator) (text : String) :
      RebuildsName name [decorate separator (.define name text)]
  | sides (separator : Separator) (before after : Option String) :
      RebuildsName name
        (before.toList.map (fun text => decorate separator (.prepend name text))
          ++ after.toList.map fun text => decorate separator (.append name text))

/-- A joined side has nothing more to be joined. -/
theorem joined?_joined? (joiner : String) (values : List String) :
    joined? joiner (joined? joiner values).toList = joined? joiner values := by
  rw [joined?_eq joiner (joined? joiner values).toList, filter_joined?]
  cases joined? joiner values with
  | none =>
      rfl
  | some text =>
      simp

theorem rebuildOps_of_unset {v : Variable} (h : v.items = []) (pathSeparator : String) :
    rebuildOps pathSeparator v = [.unset v.name] := by
  simp [rebuildOps, Variable.isUnset, h]

/-- A define of one text is rebuilt by itself, also where the text is empty. -/
theorem rebuildOps_of_value (pathSeparator name text : String) (separator : Separator) :
    rebuildOps pathSeparator ⟨name, [.value text], separator⟩
      = [decorate separator (.define name text)] := by
  rw [rebuildOps_of_values pathSeparator List.map_singleton.symm (List.cons_ne_nil _ _),
    getD_joined?, intercalate_filter_singleton]

/-- A variable that keeps its outer value at most once is rebuilt in one of these ways. -/
theorem rebuildsName_rebuildOps {v : Variable} (h : v.SingleOuter) (pathSeparator : String) :
    RebuildsName v.name (rebuildOps pathSeparator v) := by
  rcases h.items_cases with ⟨before, after, hitems⟩ | hitems | ⟨values, hvalues, hitems⟩
  · rw [rebuildOps_of_sides pathSeparator hitems]
    exact .sides ..
  · rw [rebuildOps_of_unset hitems]
    exact .unset
  · rw [rebuildOps_of_values pathSeparator hitems hvalues]
    exact .define ..

/-- A variable that keeps its outer value is rebuilt by the same operations again. What was joined
to one text stays one text, and sides that held nothing are not there any more. -/
theorem rebuildOps_rebuilt_sides {v : Variable} {before after : List String}
    (h : v.items = before.map .value ++ .previous :: after.map .value) (pathSeparator : String) :
    rebuildOps pathSeparator (rebuilt pathSeparator v) = rebuildOps pathSeparator v := by
  have hops := rebuildOps_of_sides pathSeparator h
  by_cases hany : (joined? (v.joiner pathSeparator) before).isSome
      ∨ (joined? (v.joiner pathSeparator) after).isSome
  · have hmade := applyAll_sides v.name v.separator _ _ hany
    rw [← hops] at hmade
    rw [rebuilt, hmade, rebuildOps_of_sides pathSeparator rfl, hops]
    -- the joiner of a variable is that of its separator, which is the same
    exact congrArg₂ (fun first last =>
        first.toList.map (fun text => decorate v.separator (.prepend v.name text))
          ++ last.toList.map fun text => decorate v.separator (.append v.name text))
      (joined?_joined? (v.joiner pathSeparator) before)
      (joined?_joined? (v.joiner pathSeparator) after)
  · simp only [not_or, Option.not_isSome_iff_eq_none] at hany
    have hnone : rebuildOps pathSeparator v = [] := by
      simp [hops, hany.1, hany.2]
    rw [rebuilt, hnone]
    rfl

theorem rebuildOps_rebuilt_values {v : Variable} {values : List String}
    (h : v.items = values.map .value) (hvalues : values ≠ []) (pathSeparator : String) :
    rebuildOps pathSeparator (rebuilt pathSeparator v) = rebuildOps pathSeparator v := by
  have hops := rebuildOps_of_values pathSeparator h hvalues
  have hmade : rebuilt pathSeparator v
      = ⟨v.name, [.value ((joined? (v.joiner pathSeparator) values).getD "")], v.separator⟩ := by
    rw [rebuilt, hops]
    exact apply_decorate_put _ v.separator .define v.name _ (.inl rfl)
  rw [hmade, rebuildOps_of_value, hops]

/-- A rebuilt variable is rebuilt by the same operations again. -/
theorem rebuildOps_rebuilt {v : Variable} (h : v.SingleOuter) (pathSeparator : String) :
    rebuildOps pathSeparator (rebuilt pathSeparator v) = rebuildOps pathSeparator v := by
  rcases h.items_cases with ⟨before, after, hitems⟩ | hitems | ⟨values, hvalues, hitems⟩
  · exact rebuildOps_rebuilt_sides hitems pathSeparator
  · rw [rebuilt, rebuildOps_of_unset hitems]
    rfl
  · exact rebuildOps_rebuilt_values hitems hvalues pathSeparator

end Environment

/-! ### Variable after variable -/

namespace Variables

open Environment (rebuildOps rebuilt)

variable {vars : Variables} {v : Variable} {name : String} {op : Op} {ops : List Op}

/-- An operation on another name leaves the variables that stand first as they are. -/
theorem apply_append (hnew : op.name ∉ vars.names) (more : Variables) :
    apply (vars ++ more) op = vars ++ apply more op := by
  induction vars with
  | nil =>
      rfl
  | cons v rest ih =>
      rw [names, List.map_cons, List.mem_cons, not_or] at hnew
      rw [List.cons_append, apply, if_neg (Ne.symm hnew.1), ih hnew.2, List.cons_append]

theorem applyAll_append_left (hnew : ∀ op ∈ ops, op.name ∉ vars.names) (more : Variables) :
    applyAll (vars ++ more) ops = vars ++ applyAll more ops := by
  induction ops generalizing more with
  | nil =>
      rfl
  | cons op ops ih =>
      obtain ⟨hop, hrest⟩ := List.forall_mem_cons.mp hnew
      rw [applyAll, List.foldl_cons, apply_append hop]
      exact ih hrest (apply more op)

theorem applyAll_singleton (hname : ∀ op ∈ ops, op.name = v.name) :
    applyAll [v] ops = [v.applyAll ops] := by
  induction ops generalizing v with
  | nil =>
      rfl
  | cons op ops ih =>
      obtain ⟨hop, hrest⟩ := List.forall_mem_cons.mp hname
      rw [applyAll, List.foldl_cons, apply, if_pos hop.symm]
      exact @ih (v.apply op) hrest

/-- Operations on one name make one variable of none, if there are any. -/
theorem applyAll_nil_of_forall (hname : ∀ op ∈ ops, op.name = name) :
    applyAll [] ops = if ops = [] then [] else [(Variable.fresh name).applyAll ops] := by
  cases ops with
  | nil =>
      rfl
  | cons op ops =>
      obtain ⟨rfl, hrest⟩ := List.forall_mem_cons.mp hname
      exact applyAll_singleton (v := (Variable.fresh op.name).apply op) hrest

/-- The operations that rebuild a variable make it anew behind variables of other names. Where there
are none, nothing is made. -/
theorem applyAll_rebuildOps (hnew : v.name ∉ vars.names) (pathSeparator : String) :
    vars.applyAll (rebuildOps pathSeparator v)
      = if rebuildOps pathSeparator v = [] then vars else vars ++ [rebuilt pathSeparator v] := by
  have hname : ∀ op ∈ rebuildOps pathSeparator v, op.name = v.name := fun op hop =>
    Environment.name_of_mem_rebuildOps hop
  have hbehind := applyAll_append_left (fun op hop => hname op hop ▸ hnew) []
  rw [List.append_nil] at hbehind
  rw [hbehind, applyAll_nil_of_forall hname, rebuilt]
  split
  · exact List.append_nil _
  · rfl

/-- The operations that rebuild variables make each of them anew, in the same order, but for those
that need no operation. -/
theorem applyAll_flatMap_rebuildOps {made vars : Variables} (pathSeparator : String)
    (hnodup : (made.names ++ vars.names).Nodup) :
    made.applyAll (vars.flatMap (rebuildOps pathSeparator))
      = made ++ (vars.filter (rebuildOps pathSeparator · ≠ [])).map (rebuilt pathSeparator) := by
  induction vars generalizing made with
  | nil =>
      simp [applyAll]
  | cons v rest ih =>
      have hnew : v.name ∉ made.names := fun hmem =>
        (List.nodup_append.mp hnodup).2.2 _ hmem _ List.mem_cons_self rfl
      rw [List.flatMap_cons, applyAll_append, applyAll_rebuildOps hnew]
      by_cases hnone : rebuildOps pathSeparator v = []
      · have hrest : (made.names ++ names rest).Nodup :=
          hnodup.sublist ((List.sublist_cons_self ..).append_left _)
        rw [if_pos hnone, ih hrest, List.filter_cons_of_neg (by simpa using hnone)]
      · have hrest : (names (made ++ [rebuilt pathSeparator v]) ++ names rest).Nodup := by
          simpa [names, Environment.name_rebuilt] using hnodup
        rw [if_neg hnone, ih hrest, List.filter_cons_of_pos (by simpa using hnone),
          List.map_cons, List.append_assoc, List.singleton_append]

end Variables

namespace Environment

variable {g : Graph} {consumer : String} {scope : Scope} {profiles : List Profile}
  {env : Environment}

/-- What an environment's operations make is rebuilt by the same operations. -/
theorem toOps_applyAll_toOps (h : ∀ v ∈ env.vars, v.SingleOuter) :
    (Variables.applyAll [] env.toOps).flatMap (rebuildOps env.pathSeparator) = env.toOps := by
  have hmade : Variables.applyAll [] env.toOps
      = (env.vars.filter (rebuildOps env.pathSeparator · ≠ [])).map (rebuilt env.pathSeparator) :=
    Variables.applyAll_flatMap_rebuildOps env.pathSeparator env.names_nodup
  rw [hmade, List.flatMap_map, toOps, ← flatMap_filter_ne_nil _ env.vars]
  exact List.flatMap_congr fun v hv =>
    rebuildOps_rebuilt (h v (List.mem_of_mem_filter hv)) env.pathSeparator

/-- The operations stand in the order of the variables, all those on a name together. -/
theorem toOps_eq_flatMap_names (env : Environment) :
    env.toOps = env.names.flatMap fun name => opsOn name env.toOps := by
  rw [names, Variables.names, List.flatMap_map]
  exact List.flatMap_congr fun v hv =>
    (opsOn_flatMap_rebuildOps env.pathSeparator env.names_nodup hv).symm

end Environment

namespace Graph

/-! ### A consumer that runs with one package -/

/-- All that a consumer runs with is one package, which lies in no folder and needs nothing itself.
-/
structure RunsOn (g : Graph) (consumer : String) (d : Node) : Prop where
  declared : consumer ∈ g.ids
  mem_roots_iff : ∀ id, id ∈ g.hostRoots consumer .run ↔ id = d.id
  node : g.node? d.id = some d
  targets : d.targets isHostEdge = []
  folder : d.folder = none

variable {g : Graph} {follow : Requirement → Bool} {requirements : List Requirement} {d : Node}

theorem not_leads_of_targets_eq_nil (hd : g.node? d.id = some d) (htargets : d.targets follow = [])
    (id : String) : ¬ g.Leads follow d.id id := by
  rw [← mem_targets_iff, targets_of_node? hd, htargets]
  exact List.not_mem_nil

/-- From a package that needs nothing nothing else is reached. -/
theorem reaches_leaf_iff {roots : List String} {id : String} (hroots : ∀ id, id ∈ roots ↔ id = d.id)
    (hleaf : ∀ id, ¬ g.Leads follow d.id id) : g.Reaches follow roots id ↔ id = d.id := by
  constructor
  · intro hid
    induction hid with
    | root hroot =>
        exact (hroots _).mp hroot
    | step _ hlead ih =>
        exact absurd (ih ▸ hlead) (hleaf _)
  · rintro rfl
    exact .root ((hroots _).mpr rfl)

/-- The closure of requirements of one package that needs nothing itself. -/
theorem closure_of_leaf (hroots : ∀ id, id ∈ requirements.map (·.node) ↔ id = d.id)
    (hd : g.node? d.id = some d) (htargets : d.targets follow = []) :
    g.closure follow requirements = .ok [d] := by
  have hleaf := not_leads_of_targets_eq_nil hd htargets
  have hcomplete : g.Complete follow (requirements.map (·.node)) := fun id hid =>
    (reaches_leaf_iff hroots hleaf).mp hid ▸ mem_ids_iff.mpr ⟨d, hd⟩
  have hacyclic : ¬ g.Cyclic follow (requirements.map (·.node)) := by
    rintro ⟨id, hid, hcycle⟩
    obtain ⟨next, hlead, -⟩ := Relation.TransGen.head'_iff.mp hcycle
    exact hleaf next ((reaches_leaf_iff hroots hleaf).mp hid ▸ hlead)
  obtain ⟨nodes, hnodes, horders⟩ := closure_of_acyclic hcomplete hacyclic
  have hids : nodes.map (·.id) = [d.id] := by
    refine List.perm_singleton.mp ((List.perm_ext_iff_of_nodup horders.nodup
      (List.nodup_singleton _)).mpr fun id => ?_)
    rw [horders.mem_iff, reaches_leaf_iff hroots hleaf, List.mem_singleton]
  have hlisted : nodes = [d] := by
    rw [← filterMap_node?_map_id horders.declared, hids]
    simp [hd]
  rw [hnodes, hlisted]

/-- A consumer that runs on one package has the environment that the operations of the package make.
-/
theorem RunsOn.resolve_eq {consumer : String} (h : g.RunsOn consumer d) :
    g.resolve consumer .run [] = .ok (ofOps consumer .run g.settings.os d.runEnv) := by
  obtain ⟨c, hc⟩ := mem_ids_iff.mp h.declared
  obtain ⟨requirements, hclosure, hrequired⟩ := exists_hostClosure_eq hc .run
  have hroots : ∀ id, id ∈ requirements.map (·.node) ↔ id = d.id := by
    rw [hrequired]
    exact h.mem_roots_iff
  have hnodes : g.runtime c = .ok [d] := by
    rw [← closure_of_leaf hroots h.node h.targets]
    exact hclosure
  refine resolve_of_sequence hc ?_
  simp [sequence, hnodes, runOps, Node.implicitRunEnv, h.folder, profileOps_nil, bind, Except.bind,
    pure, Except.pure]

/-- The operations that rebuild an environment are a normal form. Run in place of the environment,
from a package that a consumer needs and nothing else and on the same operating system, they make an
environment with exactly the same operations. They stand in the order of the variables, and each
variable has one unset, one define, or at most one prepend and then at most one append. -/
theorem toOps_normal {g : Graph} {consumer : String} {scope : Scope} {profiles : List Profile}
    {env : Environment} (h : g.resolve consumer scope profiles = .ok env) :
    (∀ (g' : Graph) (consumer' : String) (d : Node), g'.RunsOn consumer' d →
        d.runEnv = env.toOps → g'.settings.os = env.os →
          ∃ env', g'.resolve consumer' .run [] = .ok env' ∧ env'.toOps = env.toOps)
      ∧ env.toOps = env.names.flatMap (fun name => opsOn name env.toOps)
      ∧ ∀ name ∈ env.names, Environment.RebuildsName name (opsOn name env.toOps) := by
  refine ⟨fun g' consumer' d hruns hops hos => ?_, env.toOps_eq_flatMap_names, fun name hname => ?_⟩
  · refine ⟨_, hruns.resolve_eq, ?_⟩
    rw [hops, hos]
    exact Environment.toOps_applyAll_toOps fun v hv => Environment.singleOuter_of_resolve h hv
  · obtain ⟨v, hv, rfl⟩ := List.mem_map.mp hname
    have hops : opsOn v.name env.toOps = Environment.rebuildOps env.pathSeparator v :=
      Environment.opsOn_flatMap_rebuildOps env.pathSeparator env.names_nodup hv
    rw [hops]
    exact Environment.rebuildsName_rebuildOps (Environment.singleOuter_of_resolve h hv) _

/-- A package that is run with the operations of another environment. -/
def replay (ops : List Op) : Graph where
  settings := ⟨some .linux⟩
  nodes := [
    { Node.ofName "app" with requirements := [⟨"env", .requires, true⟩] },
    { Node.ofName "env" with runEnv := ops }]
  ids_nodup := (by decide : ["app", "env"].Nodup)

theorem toOps_normal_toolchain :
    toolchain.resolve "app" .build [] = .ok toolchainBuild
      ∧ ∃ env, (replay toolchainBuild.toOps).resolve "app" .run [] = .ok env
        ∧ env.toOps = toolchainBuild.toOps := by
  have hruns : (replay toolchainBuild.toOps).RunsOn "app"
      { Node.ofName "env" with runEnv := toolchainBuild.toOps } := {
    declared := List.mem_cons_self
    mem_roots_iff := fun id => List.mem_singleton
    node := rfl
    targets := rfl
    folder := rfl }
  exact ⟨resolve_toolchain, (toOps_normal resolve_toolchain).1 _ _ _ hruns rfl rfl⟩

end Graph

end EnvLayers
