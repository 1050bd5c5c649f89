import EnvLayers.Proofs.Environment.OwnParts
import EnvLayers.Proofs.Environment.Precedence

/-
Module: EnvLayers.Proofs.Environment.Shadowing
Purpose: A package that defines or unsets a variable hides what deeper packages do to it. Everything
  that a deeper package contributes is applied before, whatever path leads to it and whether it is a
  tool, a host package or both.
Main exports: EndAlike, EndAlike.items_eq, Graph.Closer, Graph.declaredOps, Orders.exists_split,
  Orders.endAlike, itemsOf_withParts_of_lt, Graph.closer_shadows
-/

namespace EnvLayers

/-! ### Operations with the same end -/

/-- Two lists of operations end in the same ones, and these reset a variable. -/
def EndAlike (name : String) (ops ops' : List Op) : Prop :=
  ∃ low low' high, ops = low ++ high ∧ ops' = low' ++ high
    ∧ ∃ op ∈ high, op.name = name ∧ op.resets

namespace EndAlike

variable {name : String} {ops ops' : List Op}

theorem append (h : EndAlike name ops ops') (rest : List Op) :
    EndAlike name (ops ++ rest) (ops' ++ rest) := by
  obtain ⟨low, low', high, rfl, rfl, op, hop, hresets⟩ := h
  exact ⟨low, low', high ++ rest, List.append_assoc .., List.append_assoc ..,
    op, List.mem_append_left rest hop, hresets⟩

theorem above (h : EndAlike name ops ops') (deep deep' : List Op) :
    EndAlike name (deep ++ ops) (deep' ++ ops') := by
  obtain ⟨low, low', high, rfl, rfl, hresets⟩ := h
  exact ⟨deep ++ low, deep' ++ low', high, (List.append_assoc ..).symm,
    (List.append_assoc ..).symm, hresets⟩

/-- What stands before the reset does not show. -/
theorem items_eq (h : EndAlike name ops ops') :
    ((Variables.applyAll [] ops').find name).map (·.items)
      = ((Variables.applyAll [] ops).find name).map (·.items) := by
  obtain ⟨low, low', high, rfl, rfl, hresets⟩ := h
  rw [Variables.items_find_applyAll_of_resets hresets,
    Variables.items_find_applyAll_of_resets hresets]

end EndAlike

namespace Graph

open Relation (TransGen)

/-! ### Standing closer -/

/-- In the environment of a consumer one package stands closer than another: one or more
requirements that the closure of the scope follows lead from it to the other, or it is a tool of the
build and the other only a host package. -/
inductive Closer (g : Graph) (consumer : String) : Scope → String → String → Prop where
  | runtime {m n : String} (hm : g.IsHost consumer .run m)
      (path : TransGen (g.Leads isHostEdge) m n) : Closer g consumer .run m n
  | tool {m n : String} (hm : g.IsTool consumer m)
      (path : TransGen (g.Leads isToolEdge) m n) : Closer g consumer .build m n
  | host {m n : String} (hm : g.IsTool consumer m) (hn : g.IsHost consumer .build n)
      (honly : ¬ g.IsTool consumer n) : Closer g consumer .build m n

/-- What a package declares for the environment of a consumer: its runtime environment, and for a
build also its build environment, if the consumer requires it as a tool itself. -/
def declaredOps (consumer n : Node) : Scope → List Op
  | .run => n.runEnv
  | .build => n.runEnv ++ if isDirectTool consumer n then n.buildEnv else []

variable {g : Graph} {follow : Requirement → Bool} {roots : List String} {nodes : List Node}
  {consumer name m n : String} {scope : Scope} {profiles : List Profile} {c node : Node}
  {parts : Parts}

/-! ### The order of a closure -/

/-- What stands behind a member of a list is neither in front of it nor the member itself. -/
theorem not_mem_of_idxOf_lt {front back : List String} (hnew : m ∉ front)
    (hlt : (front ++ m :: back).idxOf m < (front ++ m :: back).idxOf n) : n ∉ front ++ [m] := by
  rw [List.idxOf_append_of_notMem hnew, List.idxOf_cons_self] at hlt
  intro hn
  rcases List.mem_append.mp hn with hn | hn
  · have hfront := List.idxOf_lt_length_of_mem hn
    rw [List.idxOf_append_of_mem hn] at hlt
    omega
  · rw [List.mem_singleton.mp hn, List.idxOf_append_of_notMem hnew, List.idxOf_cons_self] at hlt
    omega

/-- Of what the roots lead to, a package stands before everything that it leads to. What they do not
lead to counts as standing behind all. -/
theorem Orders.idxOf_lt_of_behind (h : g.Orders follow roots nodes) (hm : g.Reaches follow roots m)
    (hbehind : TransGen (g.Leads follow) m n ∨ ¬ g.Reaches follow roots n) :
    (nodes.map (·.id)).idxOf m < (nodes.map (·.id)).idxOf n := by
  rcases hbehind with hpath | hunreached
  · exact hm.lt_of_transGen (nodes.map (·.id)).idxOf h.before hpath
  · rw [← h.mem_iff, ← List.idxOf_eq_length_iff] at hunreached
    rw [hunreached]
    exact List.idxOf_lt_length_of_mem ((h.mem_iff m).mpr hm)

/-- An order is split at a package that stands before an id: the id is neither in the part before
the package nor the package. -/
theorem Orders.exists_split (h : g.Orders follow roots nodes) (hnode : g.node? m = some node)
    (hm : g.Reaches follow roots m)
    (hlt : (nodes.map (·.id)).idxOf m < (nodes.map (·.id)).idxOf n) :
    ∃ front back, nodes = front ++ node :: back ∧ n ∉ (front ++ [node]).map (·.id) := by
  obtain ⟨front, back, rfl⟩ := List.append_of_mem (h.mem_of_reaches hnode hm)
  have hids : (front ++ node :: back).map (·.id) = front.map (·.id) ++ m :: back.map (·.id) := by
    rw [List.map_append, List.map_cons, id_of_node? hnode]
  have hnew : m ∉ front.map (·.id) := by
    have hnodup := h.nodup
    rw [hids, List.nodup_middle] at hnodup
    exact hnodup.notMem ∘ List.mem_append_left _
  refine ⟨front, back, rfl, ?_⟩
  rw [hids] at hlt
  rw [List.map_append, List.map_singleton, id_of_node? hnode]
  exact not_mem_of_idxOf_lt hnew hlt

/-- A package that resets a variable gives the same end to what the order gives, whatever parts a
package behind it has. -/
theorem Orders.endAlike (h : g.Orders follow roots nodes) (hnode : g.node? m = some node)
    (hm : g.Reaches follow roots m)
    (hlt : (nodes.map (·.id)).idxOf m < (nodes.map (·.id)).idxOf n) (parts : Parts)
    {f : Node → List Op} (hresets : ∃ op ∈ f node, op.name = name ∧ op.resets) :
    EndAlike name (nodes.reverse.flatMap f)
      ((nodes.map (g.withParts n parts).counterpart).reverse.flatMap f) := by
  obtain ⟨front, back, rfl, hfront⟩ := h.exists_split hnode hm hlt
  have hsame : ∀ x ∈ front ++ [node], (g.withParts n parts).counterpart x = x := by
    intro x hx
    refine counterpart_withParts_of_ne (h.declared x ?_) fun hid => ?_
    · rw [List.append_cons]
      exact List.mem_append_left back hx
    · exact hfront (List.mem_map.mpr ⟨x, hx, hid⟩)
  have hkept : (front ++ node :: back).map (g.withParts n parts).counterpart
      = front ++ node :: back.map (g.withParts n parts).counterpart := by
    rw [List.append_cons front node back, List.map_append, List.map_congr_left hsame, List.map_id',
      ← List.append_cons]
  -- what the order lists first is applied last, so the front is the common end
  have hreverse : ∀ back : List Node, (front ++ node :: back).reverse.flatMap f
      = back.reverse.flatMap f ++ (f node ++ front.reverse.flatMap f) := by
    intro back
    simp
  obtain ⟨op, hop, hop'⟩ := hresets
  exact ⟨_, _, _, hreverse back, hkept ▸ hreverse _, op, List.mem_append_left _ hop, hop'⟩

/-! ### Shadowing -/

theorem toolOps_congr {c' : Node} (h : c'.requirements = c.requirements) :
    toolOps c' = toolOps c := by
  funext os tool
  rw [toolOps, toolOps, h]

/-- What a tool declares for a consumer is part of what it gives to the build. -/
theorem mem_toolOps_of_mem_declaredOps {op : Op} (h : op ∈ declaredOps c node .build)
    (os : Option Os) : op ∈ toolOps c os node := by
  simp only [declaredOps, isDirectTool_iff] at h
  rw [toolOps, runOps, List.append_assoc]
  exact List.mem_append_right _ h

/-- Where a package is run, what it resets hides every package that stands behind it. -/
theorem itemsOf_withParts_of_lt (hc : g.node? consumer = some c) (hnode : g.node? m = some node)
    (hm : g.IsHost consumer .run m) (hlt : ∀ nodes, g.runtime c = .ok nodes →
      (nodes.map (·.id)).idxOf m < (nodes.map (·.id)).idxOf n)
    (hresets : ∃ op ∈ node.runEnv, op.name = name ∧ op.resets) :
    (g.withParts n parts).itemsOf consumer .run profiles name
      = g.itemsOf consumer .run profiles name := by
  have halike := alike_withParts g n parts
  have hc' := halike.node?_counterpart hc
  have hclosure := halike.hostClosure_eq .run hc hc'
  simp only [hostClosure] at hclosure
  rw [itemsOf_eq_sequence hc, itemsOf_eq_sequence hc', sequence, sequence, hclosure,
    halike.profileOps_counterpart hc]
  cases hnodes : g.runtime c with
  | error failure =>
      rfl
  | ok nodes =>
      have hgiven : ∃ op ∈ runOps g.settings.os node, op.name = name ∧ op.resets := by
        obtain ⟨op, hop, hop'⟩ := hresets
        exact ⟨op, List.mem_append_right _ hop, hop'⟩
      have hend := (host_spec .run hc hnodes).2.endAlike hnode hm (hlt nodes hnodes) parts hgiven
      exact congrArg Except.ok (hend.append _).items_eq

theorem itemsOf_withParts_run (hc : g.node? consumer = some c) (hnode : g.node? m = some node)
    (hm : g.IsHost consumer .run m) (path : TransGen (g.Leads isHostEdge) m n)
    (hresets : ∃ op ∈ node.runEnv, op.name = name ∧ op.resets) :
    (g.withParts n parts).itemsOf consumer .run profiles name
      = g.itemsOf consumer .run profiles name :=
  itemsOf_withParts_of_lt hc hnode hm
    (fun _ hnodes => (host_spec .run hc hnodes).2.idxOf_lt_of_behind hm (.inl path)) hresets

theorem itemsOf_withParts_build (hc : g.node? consumer = some c) (hnode : g.node? m = some node)
    (hm : g.IsTool consumer m) (hbehind : TransGen (g.Leads isToolEdge) m n ∨ ¬ g.IsTool consumer n)
    (hresets : ∃ op ∈ declaredOps c node .build, op.name = name ∧ op.resets) :
    (g.withParts n parts).itemsOf consumer .build profiles name
      = g.itemsOf consumer .build profiles name := by
  have halike := alike_withParts g n parts
  have hc' := halike.node?_counterpart hc
  have hclosure := halike.hostClosure_eq .build hc hc'
  simp only [hostClosure] at hclosure
  rw [itemsOf_eq_sequence hc, itemsOf_eq_sequence hc', sequence, sequence, hclosure,
    halike.tools_eq hc hc', halike.profileOps_counterpart hc,
    toolOps_congr (halike.requirements_counterpart hc)]
  cases htools : g.tools c with
  | error failure =>
      rfl
  | ok tools =>
      cases hhosts : g.hosts c with
      | error failure =>
          rfl
      | ok hosts =>
          have hgiven : ∃ op ∈ toolOps c g.buildSettings.os node,
              op.name = name ∧ op.resets := by
            obtain ⟨op, hop, hop'⟩ := hresets
            exact ⟨op, mem_toolOps_of_mem_declaredOps hop _, hop'⟩
          have horders := (tools_spec hc htools).2
          have hlt := horders.idxOf_lt_of_behind hm hbehind
          have hend := horders.endAlike hnode hm hlt parts hgiven
          -- the host packages, with or without the other parts, come below all tools
          exact congrArg Except.ok ((hend.above _ _).append _).items_eq

/-- A package that defines or unsets a variable hides everything deeper from it: in the environment
of a consumer the entries of the variable stay as they are, and a failure stays as it is, whatever
the environments, the folder and the layout of a package that it stands closer than. -/
theorem closer_shadows (hc : g.node? consumer = some c) (hnode : g.node? m = some node)
    (hcloser : g.Closer consumer scope m n)
    (hresets : ∃ op ∈ declaredOps c node scope, op.name = name ∧ op.resets) (parts : Parts)
    (profiles : List Profile) :
    (g.withParts n parts).itemsOf consumer scope profiles name
      = g.itemsOf consumer scope profiles name := by
  cases hcloser with
  | runtime hm path =>
      exact itemsOf_withParts_run hc hnode hm path hresets
  | tool hm path =>
      exact itemsOf_withParts_build hc hnode hm (.inl path) hresets
  | host hm _ honly =>
      exact itemsOf_withParts_build hc hnode hm (.inr honly) hresets

/-- The compiler that the compiler package defines stays, whatever a library behind it says. -/
theorem closer_shadows_toolchain :
    ∃ app cc, toolchain.node? "app" = some app ∧ toolchain.node? "cc" = some cc
      ∧ toolchain.Closer "app" .build "cc" "zlib"
      ∧ (∃ op ∈ declaredOps app cc .build, op.name = "CC" ∧ op.resets)
      ∧ (toolchain.withParts "zlib" ⟨[.define "CC" "zcc"], [.append "CC" "-m32"], some "/opt/zlib",
        .default⟩).itemsOf "app" .build [] "CC" = .ok (some [.value "cc"]) := by
  obtain ⟨app, happ⟩ : ∃ app, toolchain.node? "app" = some app := ⟨_, rfl⟩
  obtain ⟨cc, hcc⟩ : ∃ cc, toolchain.node? "cc" = some cc := ⟨_, rfl⟩
  have htool : toolchain.IsTool "app" "cc" := .root (by decide)
  have hleads : toolchain.Leads isToolEdge "cc" "zlib" := mem_targets_iff.mp (by decide)
  have hcloser : toolchain.Closer "app" .build "cc" "zlib" := .tool htool (.single hleads)
  have hresets : ∃ op ∈ declaredOps app cc .build, op.name = "CC" ∧ op.resets := by
    cases happ
    cases hcc
    exact ⟨.define "CC" "cc", by decide, rfl, rfl⟩
  refine ⟨app, cc, happ, hcc, hcloser, hresets, ?_⟩
  rw [closer_shadows happ hcc hcloser hresets, itemsOf, resolve_toolchain]
  rfl

end Graph

end EnvLayers
