import SignalSchema.CommandLine.Generator
import SignalSchema.Proofs.Permission.Coverage
import SignalSchema.Proofs.Recompilation
import SignalSchema.Proofs.Signal.Vehicle

/-!
# Reporting directives

Reporting the directives of signals saves the registry up to two times: in the compilation, when
the schema declares new permissions, and at the end, when the signals have new ones or the schema
had. What a registry says about changes lasts from the compilation to the end. So the last save
writes the final table, unless no permission was new and the table is the one in the file anyway
(`stored_of_runDirectives`).
-/

namespace SignalSchema.CommandLine

open Registry (ReadsBack stored)
open Vehicle (readPermissions)

/-- What the directives of a tree are reported by: a compilation, the signals that it deploys with
the registry that they lead to, and a save of this registry. -/
structure DirectivesRun (project : Project) (treePath : String) (files files' : Files) where
  output : Output
  /-- The files after the compilation. -/
  middle : Files
  vehicle : Vehicle
  registry : Registry
  /-- Whether the last save wrote the file. -/
  saved : Bool
  compile_eq : (project.compile.run files).run = (.ok output, middle)
  deployedSignals_eq :
    ((deployedSignals treePath output).run middle).run = (.ok (vehicle, registry), middle)
  save_eq : ((project.savePermissions registry).run middle).run = (.ok saved, files')

/-- The lines that are reported. -/
def DirectivesRun.lines {project : Project} {treePath : String} {files files' : Files}
    (steps : DirectivesRun project treePath files files') : List String :=
  Report.signals steps.vehicle ++ Report.saved steps.saved

variable {project : Project} {treePath : String} {files files' : Files} {outcome : Outcome}
  {output : Output} {vehicle : Vehicle} {registry : Registry}

/-! ### Successful reports -/

/-- What is reported about a computation depends on how it ends. -/
theorem run_outcomeOf {α : Type} (before : List String) (report : α → List String)
    (filing : Filing α) : (outcomeOf before report filing).run files =
      match (filing.run files).run with
      | (.ok a, files') => (.success (report a), files')
      | (.error f, files') => (.failure before f, files') := by
  rw [outcomeOf, StateT.run_bind]
  rcases hfiling : (filing.run files).run with ⟨result, last⟩
  have hrun : StateT.run filing.run files = (result, last) := hfiling
  rw [hrun]
  cases result with
  | ok a => rfl
  | error f => rfl

/-- The deployed signals are made of a tree in a file, and the files stay as they are. -/
theorem run_deployedSignals_eq_ok_iff :
    ((deployedSignals treePath output).run files).run = (.ok (vehicle, registry), files') ↔
      files' = files ∧ ∃ tree, SignalTree.load files treePath = .ok tree ∧
        ((Vehicle.ofTree (some output.flat) tree).run output.registry).run =
          (.ok vehicle, registry) := by
  rw [deployedSignals, Results.run_get_bind, Results.run_liftM_bind]
  cases SignalTree.load files treePath with
  | error e => simp
  | ok tree =>
    rcases hkept : ((Vehicle.ofTree (some output.flat) tree).run output.registry).run with
      ⟨kept, last⟩
    dsimp only
    rw [hkept]
    dsimp only
    rw [Results.run_liftM_bind]
    cases kept with
    | error e => simp [hkept]
    | ok v =>
      dsimp only
      rw [Results.run_pure_eq_ok_iff]
      simp [hkept, and_comm, eq_comm]

/-- The steps of a report are taken one after the other. -/
theorem run_runDirectives : (runDirectives project treePath).run files =
    match ((project.compile >>= deployedSignals treePath).run files).run with
    | (.error f, middle) => (.failure [] f, middle)
    | (.ok (vehicle, registry), middle) =>
      match ((project.savePermissions registry).run middle).run with
      | (.ok saved, files') =>
        (.success (Report.signals vehicle ++ Report.saved saved), files')
      | (.error f, files') => (.failure (Report.signals vehicle) f, files') := by
  rw [runDirectives, StateT.run_bind]
  rcases hsignals : ((project.compile >>= deployedSignals treePath).run files).run with
    ⟨result, middle⟩
  have hrun : StateT.run (project.compile >>= deployedSignals treePath).run files =
      (result, middle) := hsignals
  rw [hrun]
  cases result with
  | error f => rfl
  | ok deployed =>
    refine (run_outcomeOf _ _ _).trans ?_
    dsimp only
    obtain ⟨result, last⟩ := ((project.savePermissions deployed.2).run middle).run
    cases result with
    | ok saved => rfl
    | error f => rfl

/-- A report succeeds exactly when all steps do. -/
theorem run_runDirectives_iff : ((runDirectives project treePath).run files = (outcome, files') ∧
    outcome.status = 0) ↔
      ∃ steps : DirectivesRun project treePath files files', outcome = .success steps.lines := by
  rw [run_runDirectives]
  constructor
  · rintro ⟨h, hstatus⟩
    split at h
    next =>
      obtain rfl := (Prod.mk.inj h).1.symm
      cases hstatus
    next vehicle registry middle hdeployed =>
      split at h
      next saved last hsave =>
        obtain ⟨rfl, rfl⟩ := Prod.mk.inj h
        obtain ⟨output, middle', hcompile, hsignals⟩ := Results.run_bind_eq_ok_iff.1 hdeployed
        obtain rfl := (run_deployedSignals_eq_ok_iff.1 hsignals).1
        exact ⟨⟨output, _, vehicle, registry, saved, hcompile, hsignals, hsave⟩, rfl⟩
      next =>
        obtain rfl := (Prod.mk.inj h).1.symm
        cases hstatus
  · rintro ⟨steps, rfl⟩
    have hdeployed : ((project.compile >>= deployedSignals treePath).run files).run =
        (.ok (steps.vehicle, steps.registry), steps.middle) :=
      Results.run_bind_eq_ok_iff.2 ⟨_, _, steps.compile_eq, steps.deployedSignals_eq⟩
    rw [hdeployed]
    dsimp only
    rw [steps.save_eq]
    exact ⟨rfl, rfl⟩

/-! ### The registry at the end -/

/-- The only directive of a signal that demands a permission is that of a leaf, for the permission
to read it. -/
theorem eq_requiring_of_mem_ofTree {tree : SignalTree} {d : WrittenDirective}
    (hd : d ∈ (SignalDirectives.ofTree tree).toList) (hname : d.name = Permissions.directiveName) :
    tree.isLeaf = true ∧ d = .requiring (tree.signal.permission readOperation) := by
  rw [SignalDirectives.ofTree] at hd
  split at hd
  next hleaf =>
    rcases List.mem_append.1 hd with hrange | hpermission
    · rw [Option.mem_toList, WrittenDirective.range?] at hrange
      split at hrange
      · cases hrange
      · obtain rfl := (Option.some.inj hrange).symm
        have hother : Range.directiveName ≠ Permissions.directiveName := by decide
        exact absurd hname hother
    · exact ⟨hleaf, List.mem_singleton.1 hpermission⟩
  next => cases hd

/-- What is read at the beginning of a report, and the tree that it is about. -/
structure DirectivesRun.StartsWith (steps : DirectivesRun project treePath files files')
    (reading : Reading) (tree : SignalTree) : Prop where
  read : project.readAll files = .ok reading
  /-- The compilation saves the registry with the permissions of the schema. -/
  save : ∃ saved, ((reading.updated.save project.permissionsPath).run files).run =
    (.ok saved, steps.middle)
  /-- The signals go on from this registry. -/
  run : ((Vehicle.ofTree (some reading.flat) tree).run reading.updated).run =
    (.ok steps.vehicle, steps.registry)

/-- Every report starts with some reading and some tree. -/
theorem DirectivesRun.exists_startsWith (steps : DirectivesRun project treePath files files') :
    ∃ reading tree, steps.StartsWith reading tree := by
  obtain ⟨reading, saved, schema, hread, hsave, -, houtput⟩ :=
    Project.run_eq_ok_iff.1 steps.compile_eq
  obtain ⟨-, tree, -, hrun⟩ := run_deployedSignals_eq_ok_iff.1 steps.deployedSignals_eq
  rw [houtput] at hrun
  exact ⟨reading, tree, hread, ⟨saved, hsave⟩, hrun⟩

namespace DirectivesRun.StartsWith

variable {steps : DirectivesRun project treePath files files'} {reading : Reading}
  {tree : SignalTree}

/-- The table that was read is the one in the file. -/
theorem stored_before (h : steps.StartsWith reading tree) :
    stored project.permissionsPath files = .ok reading.registry.table := by
  rw [stored, Project.load_of_readAll h.read]
  rfl

/-- The registry at the end has the permissions to read the deployed leaves after all others. -/
theorem registry_eq (h : steps.StartsWith reading tree) :
    steps.registry = reading.updated.registerAll
      (readPermissions (SignalTree.keptNodes (some reading.flat) tree)) :=
  (Vehicle.keeps_of_run_ofTree tree h.run).2

/-- The table at the end continues the one that was read. -/
theorem continues (h : steps.StartsWith reading tree) :
    reading.registry.table.Continues steps.registry.table := by
  have hconsistent : reading.registry.Consistent := by
    rw [Registry.load_eq_ofTable (Project.load_of_readAll h.read)]
    exact Registry.consistent_ofTable _
  rw [h.registry_eq]
  exact (hconsistent.continues_registerAll _).trans
    ((hconsistent.registerAll _).continues_registerAll _)

/-- Every directive that demands a permission is that of a deployed leaf. -/
theorem exists_requiring (h : steps.StartsWith reading tree) {part : Vehicle}
    (hpart : part ∈ steps.vehicle.walk) {d : WrittenDirective}
    (hd : d ∈ part.top.directives.toList) (hname : d.name = Permissions.directiveName) :
    ∃ permission ∈ readPermissions (SignalTree.keptNodes (some reading.flat) tree),
      d = .requiring permission := by
  obtain ⟨node, hnode, hstands⟩ :=
    Results.exists_of_mem_right (Vehicle.forall₂_keptNodes_walk h.run) hpart
  rw [hstands.directives_eq] at hd
  obtain ⟨hleaf, rfl⟩ := eq_requiring_of_mem_ofTree hd hname
  exact ⟨_, List.mem_map_of_mem (List.mem_filter.2 ⟨hnode, hleaf⟩), rfl⟩

/-- Where no permission was new, the files stay as they are, and so does the registry. -/
theorem eq_of_not_changed (h : steps.StartsWith reading tree)
    (hchanged : steps.registry.changed = false) :
    files' = files ∧ steps.registry = reading.registry := by
  have hregistry := h.registry_eq
  rw [hregistry] at hchanged
  have hleaves := Registry.registerAll_eq_of_not_changed hchanged
  rw [hleaves] at hregistry hchanged
  have hdeclared : reading.updated = reading.registry :=
    Registry.registerAll_eq_of_not_changed hchanged
  -- neither of the saves has anything to write
  obtain ⟨saved, hfirst⟩ := h.save
  have hlast := steps.save_eq
  rw [Project.savePermissions, hregistry, Registry.save_of_not_changed hchanged] at hlast
  rw [Registry.save_of_not_changed hchanged] at hfirst
  obtain ⟨-, hmiddle⟩ := Results.run_pure_eq_ok_iff.1 hfirst
  obtain ⟨-, hfiles⟩ := Results.run_pure_eq_ok_iff.1 hlast
  exact ⟨(hmiddle.trans hfiles).symm, hregistry.trans hdeclared⟩

/-- The file of the registry has the final table afterwards, whichever of the saves wrote it. -/
theorem stored_after (h : steps.StartsWith reading tree)
    (hreads : steps.registry.changed = true → ReadsBack steps.registry.table) :
    stored project.permissionsPath files' = .ok steps.registry.table := by
  cases hchanged : steps.registry.changed with
  | true => exact Registry.stored_of_save steps.save_eq hchanged (hreads hchanged)
  | false =>
    obtain ⟨hfiles, hregistry⟩ := h.eq_of_not_changed hchanged
    rw [hregistry]
    exact hfiles ▸ h.stored_before

end DirectivesRun.StartsWith

/-- The directives of a tree are reported in only one way. -/
theorem DirectivesRun.unique (a b : DirectivesRun project treePath files files') : a = b := by
  obtain ⟨output, middle, vehicle, registry, saved, hcompile, hdeployed, hsave⟩ := a
  obtain ⟨output', middle', vehicle', registry', saved', hcompile', hdeployed', hsave'⟩ := b
  obtain ⟨⟨⟩, rfl⟩ := Prod.mk.inj (hcompile.symm.trans hcompile')
  obtain ⟨⟨⟩, -⟩ := Prod.mk.inj (hdeployed.symm.trans hdeployed')
  obtain ⟨⟨⟩, -⟩ := Prod.mk.inj (hsave.symm.trans hsave')
  rfl

/-! ### A tree with one leaf -/

/-- A tree of signals with the only leaf `A`. -/
def leafSource : String :=
  r#"{"A":{"type":"sensor"}}"#

/-- The files of a project beside the tree. -/
def leafFiles : Files :=
  Project.permissionFiles.setAt ["t"] (.text leafSource)

/-- The files after the compilation. -/
def compiledLeafFiles : Files :=
  Session.savedFiles leafFiles (Registry.empty.registerAll ["P"]).table

/-- Reporting the leaf makes its permission the second one. -/
theorem exists_run_leaf : ∃ tree vehicle registry,
    SignalTree.ofText leafSource = .ok tree ∧
      ((Vehicle.ofTree (some (Deploy.FlatMap.ofTree .null)) tree).run
        (Registry.empty.registerAll ["P"])).run = (.ok vehicle, registry) ∧
      Report.signals vehicle = ["    A @hasPermissions(permissions: [\"A_READ\"])"] ∧
      registry.table.entries = [("P", 0), ("A_READ", 1)] ∧ registry.changed = true := by
  have hview : (SignalTree.ofText leafSource).toOption.map (fun tree =>
      let kept := ((Vehicle.ofTree (some (Deploy.FlatMap.ofTree .null)) tree).run
        (Registry.empty.registerAll ["P"])).run
      (kept.1.toOption.map Report.signals, kept.2.table.entries, kept.2.changed)) =
        some (some ["    A @hasPermissions(permissions: [\"A_READ\"])"],
          [("P", 0), ("A_READ", 1)], true) := by decide +kernel
  obtain ⟨tree, htree, hview⟩ := Option.map_eq_some_iff.1 hview
  dsimp only at hview
  obtain ⟨hsignals, hview⟩ := Prod.mk.inj hview
  obtain ⟨hentries, hchanged⟩ := Prod.mk.inj hview
  obtain ⟨vehicle, hvehicle, hsignals⟩ := Option.map_eq_some_iff.1 hsignals
  exact ⟨tree, vehicle, _, Results.toOption_eq_some_iff.1 htree,
    Prod.ext (Results.toOption_eq_some_iff.1 hvehicle) rfl, hsignals, hentries, hchanged⟩

/-- The compilation saves the permission of the schema, and the report that of the leaf after
it. -/
theorem exists_directivesRun_leaf :
    ∃ (files' : Files) (steps : DirectivesRun Project.interfaceProject "t" leafFiles files'),
      steps.lines = ["    A @hasPermissions(permissions: [\"A_READ\"])",
        "  ◉ Permissions updated"] ∧
      steps.registry.table.entries = [("P", 0), ("A_READ", 1)] := by
  obtain ⟨reading, schema, -, -, hflat, -, hupdated, hcompile⟩ :=
    @Project.exists_compile_permissionSource leafFiles rfl rfl rfl rfl rfl
  obtain ⟨tree, vehicle, registry, htree, hrun, hsignals, hentries, hchanged⟩ := exists_run_leaf
  -- the compilation has not touched the tree
  have hload : SignalTree.load compiledLeafFiles "t" = .ok tree := by
    have hlocate := (@Project.canonical_name compiledLeafFiles "t" rfl (by cbv)
      (by decide +kernel) (by decide) rfl).1
    rw [SignalTree.load, Files.read_eq_ok_iff.2 ⟨_, hlocate, rfl⟩]
    dsimp only
    rw [htree]
  have hdeployed : ((deployedSignals "t" (reading.output schema true)).run
      compiledLeafFiles).run = (.ok (vehicle, registry), compiledLeafFiles) := by
    refine run_deployedSignals_eq_ok_iff.2 ⟨rfl, tree, hload, ?_⟩
    change ((Vehicle.ofTree (some reading.flat) tree).run reading.updated).run = _
    rw [hflat, hupdated]
    exact hrun
  refine ⟨_, ⟨_, _, vehicle, registry, true, hcompile, hdeployed,
    Session.run_save_p rfl hchanged (by decide) (by decide)⟩, ?_, hentries⟩
  rw [DirectivesRun.lines, hsignals]
  rfl

/-! ### Main result -/

/-- When the directives of a tree are reported, the table in the file of the registry is the final
one afterwards. It continues the one that was there before, so that no number has changed, and it
has a number for the permission of every directive that was reported and for every permission that
a field of the schema declares. Where no permission was new, no file has changed. -/
theorem stored_of_runDirectives (h : (runDirectives project treePath).run files = (outcome, files'))
    (hstatus : outcome.status = 0) :
    ∃ (reading : Reading) (steps : DirectivesRun project treePath files files'),
      project.readAll files = .ok reading ∧ outcome = .success steps.lines ∧
      stored project.permissionsPath files = .ok reading.registry.table ∧
      ((steps.registry.changed = true → ReadsBack steps.registry.table) →
        stored project.permissionsPath files' = .ok steps.registry.table) ∧
      reading.registry.table.Continues steps.registry.table ∧
      (∀ permission n, reading.registry.get? permission = some n →
        steps.registry.get? permission = some n) ∧
      (∀ part ∈ steps.vehicle.walk, ∀ d ∈ part.top.directives.toList,
        d.name = Permissions.directiveName → ∃ permission, d = .requiring permission ∧
          (steps.registry.get? permission).isSome = true) ∧
      (∀ permission, reading.document.DeclaresAtField permission →
        (steps.registry.get? permission).isSome = true) ∧
      (steps.registry.changed = false → files' = files) := by
  obtain ⟨steps, rfl⟩ := run_runDirectives_iff.1 ⟨h, hstatus⟩
  obtain ⟨reading, tree, hstarts⟩ := steps.exists_startsWith
  refine ⟨reading, steps, hstarts.read, rfl, hstarts.stored_before, hstarts.stored_after,
    hstarts.continues, fun permission n => hstarts.continues.get?_eq_some,
    fun part hpart d hd hname => ?_, fun permission hdeclared => ?_,
    fun hchanged => (hstarts.eq_of_not_changed hchanged).1⟩
  · obtain ⟨permission, hmem, rfl⟩ := hstarts.exists_requiring hpart hd hname
    refine ⟨permission, rfl, ?_⟩
    rw [hstarts.registry_eq, Registry.isSome_get?_registerAll]
    exact .inr hmem
  · rw [hstarts.registry_eq, Registry.isSome_get?_registerAll]
    exact .inl (reading.registry.isSome_get?_update_iff.2 (.inr hdeclared))

/-- After the report of the leaf, the file has the permission of the schema and that of the
leaf. -/
theorem stored_of_runDirectives_leaf : ∃ outcome files' table,
    (runDirectives Project.interfaceProject "t").run leafFiles = (outcome, files') ∧
      outcome.status = 0 ∧
      outcome.lines = ["    A @hasPermissions(permissions: [\"A_READ\"])",
        "  ◉ Permissions updated"] ∧
      stored "p" files' = .ok table ∧ table.entries = [("P", 0), ("A_READ", 1)] := by
  obtain ⟨files', steps, hlines, hentries⟩ := exists_directivesRun_leaf
  obtain ⟨hrun, hstatus⟩ := run_runDirectives_iff.2 ⟨steps, rfl⟩
  have htable : steps.registry.table = (Registry.empty.registerAll ["P", "A_READ"]).table :=
    Table.ext hentries
  have hreads : ReadsBack steps.registry.table := by
    rw [htable]
    exact Registry.readsBack_iff.2 (by decide +kernel)
  obtain ⟨-, steps', -, -, -, hstored, -⟩ := stored_of_runDirectives hrun hstatus
  obtain rfl := steps'.unique steps
  exact ⟨_, files', _, hrun, hstatus, hlines, hstored fun _ => hreads, hentries⟩

end SignalSchema.CommandLine
