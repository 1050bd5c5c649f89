import EnvLayers.Command.Generate
import EnvLayers.Proofs.Environment.Resolve
import EnvLayers.Proofs.Graph.Acceptance
import EnvLayers.Proofs.Script.Save

/-
Module: EnvLayers.Proofs.Command.Generate
Purpose: What the command that writes both scripts leaves behind. A build that does not resolve
  leaves the files as they were, and both scripts are there at the end of a command that succeeds. A
  run that does not resolve comes too late: the script of the build has been written by then.
Main exports: Generate.AllOrNothing, Generate.run_cases, Generate.allOrNothing_iff
-/

namespace EnvLayers.Command.Generate

/-- The command writes all scripts or none, as far as resolving goes: where it fails as a scope
does not resolve, it has changed no file and told of no script, and where it succeeds, the script of
every scope has been written. -/
structure AllOrNothing (h : Host) (r : GenerateRequest) (resolve : Scope → Outcome Environment)
    (report : Report) : Prop where
  nothing : ∀ scope cause, resolve scope = .error cause →
    report.ending = .failed (.failure cause) → report.files = h.files ∧ report.output = ""
  all : report.ending = .done →
    ∀ scope, ∃ env, resolve scope = .ok env ∧ env.Saved report.files r.directory r.start

section Scopes

variable {paint : Text.Style → String → String} {resolve : Scope → Outcome Environment}
  {directory start : String}

/-- How the handling of scopes ends: after the last one, or at one that does not resolve or cannot
be written. -/
inductive EndsAt (resolve : Scope → Outcome Environment) : List Scope → Ending → Prop
  | done : EndsAt resolve [] .done
  | unresolved {scope : Scope} {rest : List Scope} {cause : Failure} :
      resolve scope = .error cause → EndsAt resolve (scope :: rest) (.failed (.failure cause))
  | unwritten {scope : Scope} {rest : List Scope} {env : Environment} {fault : IoFault} :
      resolve scope = .ok env →
        EndsAt resolve (scope :: rest) (.failed (.failure (.io fault)))

/-- What the handling of scopes leaves, where the first of them were written. -/
structure Handles (resolve : Scope → Outcome Environment) (directory start output : String)
    (f : Files) (written rest : List Scope) (report : Report) : Prop where
  ending : EndsAt resolve rest report.ending
  placed : ∀ scope ∈ written, ∃ env, resolve scope = .ok env
    ∧ env.Placed report.files directory start
  kept : ∀ env : Environment, env.scope ∉ written → env.Placed f directory start →
    env.Placed report.files directory start
  files : written = [] → report.files = f
  output : report.output = "" ↔ output = "" ∧ written = []

theorem line_ne_empty (path : String) : line paint path ≠ "" := by
  intro hempty
  have hlength := congrArg String.length hempty
  simp [line] at hlength

/-- Scope after scope is written, up to the end or to the first one that fails. -/
theorem exists_handles (hresolve : ∀ scope env, resolve scope = .ok env → env.scope = scope)
    {scopes : List Scope} (hnodup : scopes.Nodup) (output : String) (f : Files) :
    ∃ written rest, scopes = written ++ rest ∧ Handles resolve directory start output f written rest
      (writeScopes paint resolve directory start output f scopes) := by
  -- A script that was placed stays, as the scopes behind it are others.
  induction scopes generalizing output f with
  | nil =>
      exact ⟨[], [], rfl, ⟨.done, by simp, fun _ _ h => h, fun _ => rfl, by simp [writeScopes]⟩⟩
  | cons scope scopes ih =>
      obtain ⟨hscope, hnodup⟩ := List.nodup_cons.mp hnodup
      unfold writeScopes
      split
      · next cause hcause =>
        exact ⟨[], _, rfl, ⟨.unresolved hcause, by simp, fun _ _ h => h, fun _ => rfl, by simp⟩⟩
      · next env henv =>
        split
        · next cause hcause =>
          obtain ⟨fault, rfl⟩ := Environment.exists_of_save_error hcause
          exact ⟨[], _, rfl, ⟨.unwritten henv, by simp, fun _ _ h => h, fun _ => rfl, by simp⟩⟩
        · next f' path hsave =>
          obtain ⟨written, rest, rfl, hrest⟩ := ih hnodup (output ++ line paint path) f'
          have henvscope := hresolve scope env henv
          refine ⟨scope :: written, rest, rfl, ⟨hrest.ending, ?_, ?_, by simp, ?_⟩⟩
          · rintro other (_ | ⟨_, hother⟩)
            · refine ⟨env, henv, hrest.kept env ?_ (Environment.placed_of_save hsave)⟩
              exact henvscope ▸ fun hmem => hscope (List.mem_append_left _ hmem)
            · exact hrest.placed other hother
          · intro other hother hplaced
            rw [List.mem_cons, not_or] at hother
            exact hrest.kept other hother.2 (hplaced.save (henvscope ▸ hother.1) hsave)
          · simp [hrest.output, line_ne_empty]

end Scopes

theorem scope_of_resolve {g : Graph} {consumer : String} {scope : Scope} {profiles : List Profile}
    {env : Environment} (h : g.resolve consumer scope profiles = .ok env) : env.scope = scope := by
  obtain ⟨_, _, -, -, rfl⟩ := Graph.exists_sequence_of_resolve h
  rfl

variable {h : Host} {r : GenerateRequest} {g : Graph} {profiles : List Profile} {consumer : String}

/-- A command for both scopes handles the build and then the run. -/
theorem exists_handles_run (hscope : r.scope = none)
    (hprepare : prepare h r = .ok (g, profiles, consumer)) :
    ∃ written rest, [Scope.build, .run] = written ++ rest
      ∧ Handles (fun scope => g.resolve consumer scope profiles) r.directory r.start "" h.files
        written rest (run h r) := by
  have hrun : run h r = writeScopes (paint h) (fun scope => g.resolve consumer scope profiles)
      r.directory r.start "" h.files [.build, .run] := by
    rw [run, hprepare, scopes, hscope]
    rfl
  rw [hrun]
  exact exists_handles (fun _ _ => scope_of_resolve) (by decide) "" h.files

/-- The three ways in which a command for both scopes goes when writing does not fail. -/
theorem run_cases (hscope : r.scope = none)
    (hprepare : prepare h r = .ok (g, profiles, consumer))
    (hwritten : ∀ fault, (run h r).ending ≠ .failed (.failure (.io fault))) :
    (∃ cause, g.resolve consumer .build profiles = .error cause
      ∧ (run h r).ending = .failed (.failure cause)
      ∧ (run h r).files = h.files ∧ (run h r).output = "")
    ∨ (∃ build cause, g.resolve consumer .build profiles = .ok build
      ∧ g.resolve consumer .run profiles = .error cause
      ∧ (run h r).ending = .failed (.failure cause)
      ∧ build.Saved (run h r).files r.directory r.start ∧ (run h r).output ≠ "")
    ∨ (run h r).ending = .done ∧ ∀ scope, ∃ env, g.resolve consumer scope profiles = .ok env
      ∧ env.Saved (run h r).files r.directory r.start := by
  obtain ⟨written, rest, hsplit, hhandles⟩ := exists_handles_run hscope hprepare
  have hending := hhandles.ending
  match written, hsplit with
  | [], hsplit =>
    cases hsplit
    refine .inl ?_
    generalize heq : (run h r).ending = ending at hending
    cases hending with
    | unresolved hcause =>
        exact ⟨_, hcause, rfl, hhandles.files rfl, hhandles.output.mpr ⟨rfl, rfl⟩⟩
    | unwritten => exact absurd heq (hwritten _)
  | [_], hsplit =>
    cases hsplit
    refine .inr (.inl ?_)
    obtain ⟨build, hbuild, hplaced⟩ := hhandles.placed .build (by simp)
    have houtput : (run h r).output ≠ "" := fun hempty => by simpa using hhandles.output.mp hempty
    generalize heq : (run h r).ending = ending at hending
    cases hending with
    | unresolved hcause => exact ⟨build, _, hbuild, hcause, rfl, hplaced.saved, houtput⟩
    | unwritten => exact absurd heq (hwritten _)
  | [_, _], hsplit =>
    cases hsplit
    refine .inr (.inr ⟨?_, fun scope => ?_⟩)
    · generalize (run h r).ending = ending at hending
      cases hending
      rfl
    · obtain ⟨env, henv, hplaced⟩ := hhandles.placed scope (by cases scope <;> simp)
      exact ⟨env, henv, hplaced.saved⟩
  | _ :: _ :: _ :: _, hsplit => cases hsplit

/-- A command for both scopes writes all scripts or none unless only the run does not resolve. Then
it fails as the run does, and the script of the build is there. Where both resolve, it succeeds. -/
theorem allOrNothing_iff (hscope : r.scope = none)
    (hprepare : prepare h r = .ok (g, profiles, consumer))
    (hwritten : ∀ fault, (run h r).ending ≠ .failed (.failure (.io fault))) :
    (AllOrNothing h r (fun scope => g.resolve consumer scope profiles) (run h r)
      ↔ ∀ build, g.resolve consumer .build profiles = .ok build →
        ∃ env, g.resolve consumer .run profiles = .ok env)
    ∧ (∀ build cause, g.resolve consumer .build profiles = .ok build →
        g.resolve consumer .run profiles = .error cause →
        (run h r).ending = .failed (.failure cause)
        ∧ build.Saved (run h r).files r.directory r.start)
    ∧ ((∀ scope, ∃ env, g.resolve consumer scope profiles = .ok env) →
        (run h r).ending = .done) := by
  rcases run_cases hscope hprepare hwritten with ⟨cause, hbuild, hending, hfiles, houtput⟩
    | ⟨build, cause, hbuild, hrun, hending, hsaved, houtput⟩ | ⟨hending, hsaved⟩
  · refine ⟨⟨fun _ build hok => ?_, fun _ => ⟨fun _ _ _ _ => ⟨hfiles, houtput⟩, ?_⟩⟩,
      fun build _ hok => ?_, fun hall => ?_⟩
    · cases hbuild.symm.trans hok
    · rw [hending]
      nofun
    · cases hbuild.symm.trans hok
    · obtain ⟨build, hok⟩ := hall .build
      cases hbuild.symm.trans hok
  · refine ⟨⟨fun hall => ?_, fun hboth => ?_⟩, fun build' cause' hbuild' hrun' => ?_,
      fun hall => ?_⟩
    · exact absurd (hall.nothing .run cause hrun hending).2 houtput
    · obtain ⟨env, henv⟩ := hboth build hbuild
      cases hrun.symm.trans henv
    · cases hbuild.symm.trans hbuild'
      cases hrun.symm.trans hrun'
      exact ⟨hending, hsaved⟩
    · obtain ⟨env, henv⟩ := hall .run
      cases hrun.symm.trans henv
  · refine ⟨⟨fun _ _ _ => ?_, fun _ => ⟨fun scope cause herror => ?_, fun _ => hsaved⟩⟩,
      fun _ _ _ herror => ?_, fun _ => hending⟩
    · obtain ⟨env, henv, -⟩ := hsaved .run
      exact ⟨env, henv⟩
    · obtain ⟨env, henv, -⟩ := hsaved scope
      cases henv.symm.trans herror
    · obtain ⟨env, henv, -⟩ := hsaved .run
      cases henv.symm.trans herror

/-! ### A cycle that only tests lead to -/

/-- A file whose root needs a package of a cycle for its tests. A further package is outside of the
cycle. -/
def cyclicFile : String :=
  "root: app\nnodes:\n- name: app\n  test_requires: [a]\n- name: a\n  requires: [b]\n- name: b\n"
    ++ "  requires: [a]\n- name: lib\n"

/-- What the file holds. -/
def cyclicDatum : Datum :=
  .map [(.text "root", .text "app"),
    (.text "nodes", .seq [
      .map [(.text "name", .text "app"), (.text "test_requires", .seq [.text "a"])],
      .map [(.text "name", .text "a"), (.text "requires", .seq [.text "b"])],
      .map [(.text "name", .text "b"), (.text "requires", .seq [.text "a"])],
      .map [(.text "name", .text "lib")]])]

/-- The contents that the file declares. -/
def cyclicContents : DeclaredGraph where
  root := some "app"
  settings := ⟨none⟩
  buildSettings := ⟨none⟩
  nodes :=
    [{ Node.ofName "app" with requirements := [⟨"a", .testRequires, false⟩] },
      { Node.ofName "a" with requirements := [⟨"b", .requires, true⟩] },
      { Node.ofName "b" with requirements := [⟨"a", .requires, true⟩] }, .ofName "lib"]

/-- The graph of the file. -/
def cyclicGraph : Graph where
  root := cyclicContents.root
  nodes := cyclicContents.nodes
  source := some "g"
  ids_nodup := by decide

/-- A host with the file and nothing else. -/
def cyclicHost : Host := ⟨⟨[(["g"], .file (some cyclicFile) false)], []⟩, []⟩

/-- The code of the failure that a command ended with. -/
def failureCode? : Ending → Option String
  | .failed complaint => complaint.code?
  | _ => none

/-- The wish for both scripts beside the file. -/
def requestFor (consumer : Option String) : GenerateRequest :=
  ⟨consumer, none, ".", "depenv", ⟨"g", []⟩⟩

theorem read_cyclicFile : Yaml.read cyclicFile = .ok cyclicDatum := by
  let plain (text : String) : Yaml.Event := .scalar none none true text
  have hdocument : Yaml.Document.ofTokens (Yaml.Token.scan cyclicFile.toList)
      = ⟨[.mappingStart none none, plain "root", plain "app", plain "nodes",
          .sequenceStart none none,
          .mappingStart none none, plain "name", plain "app", plain "test_requires",
          .sequenceStart none none, plain "a", .collectionEnd, .collectionEnd,
          .mappingStart none none, plain "name", plain "a", plain "requires",
          .sequenceStart none none, plain "b", .collectionEnd, .collectionEnd,
          .mappingStart none none, plain "name", plain "b", plain "requires",
          .sequenceStart none none, plain "a", .collectionEnd, .collectionEnd,
          .mappingStart none none, plain "name", plain "lib", .collectionEnd,
          .collectionEnd, .collectionEnd], .last⟩ := by
    decide +kernel
  have htexts : ∀ text ∈ ["root", "app", "nodes", "test_requires", "requires", "lib",
      "name", "a", "b"], Yaml.Node.scalarDatum none true text = some (.text text) := by
    have hplain : ∀ text ∈ ["root", "app", "nodes", "test_requires", "requires", "lib",
      "name", "a", "b"], Yaml.Plain.read text = .text := by
      decide +kernel
    intro text hmem
    simp [Yaml.Node.scalarDatum, Yaml.Node.plainDatum, hplain text hmem, Yaml.Node.underTag]
  rw [Yaml.read, hdocument]
  simp [plain, Yaml.Node.ofEvents?, Yaml.Node.nest, Yaml.Node.finished, Yaml.Frame.add,
    Yaml.Frame.close, Yaml.Node.toDatum, Yaml.depthLimit, Yaml.Node.expand, htexts,
    Yaml.Node.addEntry, Yaml.Node.underTag, Datum.same]
  rfl

theorem ofYaml_cyclicFile : Graph.ofYaml cyclicFile = .ok (cyclicContents.graph (by decide)) := by
  have hfits : DeclaredGraph.decode cyclicDatum = .ok cyclicContents := by
    rfl
  have hsound : cyclicContents.IsSound := by
    rw [DeclaredGraph.isSound_iff]
    decide
  rw [Graph.ofYaml_of_decode read_cyclicFile hfits]
  exact Graph.ofDeclared_ok_iff.mpr ⟨hsound, _, rfl⟩

theorem rebase_cyclic : (cyclicContents.graph (by decide)).rebase "g" = cyclicGraph := by
  have hbase : Path.parent? "g" = some "" := by
    cbv
  simp only [Graph.rebase, hbase]
  rfl

theorem prepare_cyclic {consumer : Option String} {id : String}
    (hid : consumer.or (some "app") = some id) (hmem : id ∈ cyclicGraph.ids) :
    prepare cyclicHost (requestFor consumer) = .ok (cyclicGraph, [], id) := by
  have htext : cyclicHost.files.view.readText "g" = .ok cyclicFile := by
    cbv
  have hload : Graph.load cyclicHost.files.view "g" = .ok cyclicGraph := by
    rw [Graph.load, htext]
    simp only [ofYaml_cyclicFile]
    exact congrArg Except.ok rebase_cyclic
  have hsources : loadSources cyclicHost ⟨"g", []⟩ = .ok (cyclicGraph, []) := by
    rw [loadSources, hload]
    rfl
  obtain ⟨n, hn⟩ := Graph.mem_ids_iff.mp hmem
  have hconsumer : chooseConsumer cyclicGraph consumer = .ok id := by
    have hroot : cyclicGraph.root = some "app" := rfl
    rw [chooseConsumer, hroot, hid]
    simp [Graph.node, hn, attempt, bind, Except.bind, pure, Except.pure, Except.mapError]
  rw [prepare, requestFor, hsources]
  simp [attempt, hconsumer, bind, Except.bind, pure, Except.pure, Except.mapError]

theorem resolve_lib (scope : Scope) :
    cyclicGraph.resolve "lib" scope [] = .ok (Graph.ofOps "lib" scope none []) := by
  cases scope <;> cbv

/-- How the root resolves: only its run meets the cycle. -/
def appEnvironment : Scope → Outcome Environment
  | .build => .ok (Graph.ofOps "app" .build none [])
  | .run => .error (.cyclicDependency ["a", "b"])

theorem resolve_app (scope : Scope) :
    cyclicGraph.resolve "app" scope [] = appEnvironment scope := by
  cases scope <;> cbv

/-- Both scripts of the package outside of the cycle are written. -/
theorem allOrNothing_iff_lib :
    (run cyclicHost (requestFor (some "lib"))).ending = .done
      ∧ AllOrNothing cyclicHost (requestFor (some "lib"))
        (fun scope => cyclicGraph.resolve "lib" scope [])
        (run cyclicHost (requestFor (some "lib"))) := by
  have hprepare : prepare cyclicHost (requestFor (some "lib")) = .ok (cyclicGraph, [], "lib") :=
    prepare_cyclic rfl (by decide)
  have hcode : (run cyclicHost (requestFor (some "lib"))).exitCode = 0 := by
    rw [run, hprepare]
    dsimp only
    rw [funext resolve_lib]
    decide +kernel
  have hwritten : ∀ fault, (run cyclicHost (requestFor (some "lib"))).ending
      ≠ .failed (.failure (.io fault)) := by
    intro fault hending
    rw [Report.exitCode, hending] at hcode
    cases hcode
  obtain ⟨hiff, -, hdone⟩ := allOrNothing_iff rfl hprepare hwritten
  exact ⟨hdone fun scope => ⟨_, resolve_lib scope⟩, hiff.mpr fun _ _ => ⟨_, resolve_lib .run⟩⟩

/-- The script of the build is there although the run meets the cycle. -/
theorem build_script_left :
    prepare cyclicHost (requestFor none) = .ok (cyclicGraph, [], "app")
      ∧ ¬ AllOrNothing cyclicHost (requestFor none)
        (fun scope => cyclicGraph.resolve "app" scope [])
        (run cyclicHost (requestFor none)) := by
  have hprepare : prepare cyclicHost (requestFor none) = .ok (cyclicGraph, [], "app") :=
    prepare_cyclic rfl (by decide)
  have hcode : failureCode? (run cyclicHost (requestFor none)).ending
      = some "depenv::cyclic_dependency" := by
    rw [run, hprepare]
    dsimp only
    rw [funext resolve_app]
    decide +kernel
  have hwritten : ∀ fault, (run cyclicHost (requestFor none)).ending
      ≠ .failed (.failure (.io fault)) := by
    intro fault hending
    simp [hending, failureCode?, Complaint.code?, Failure.code] at hcode
  refine ⟨hprepare, fun hall => ?_⟩
  rcases run_cases rfl hprepare hwritten with ⟨cause, hbuild, -⟩
    | ⟨build, cause, -, hrun, hending, -, houtput⟩ | ⟨-, hsaved⟩
  · cases (resolve_app .build).symm.trans hbuild
  · exact houtput (hall.nothing .run cause hrun hending).2
  · obtain ⟨env, henv, -⟩ := hsaved .run
    cases (resolve_app .run).symm.trans henv

end EnvLayers.Command.Generate
