import SignalSchema.Proofs.Layer.Loading
import SignalSchema.Proofs.Permission.Session
import SignalSchema.Proofs.Schema.Built
import SignalSchema.Project

/-!
# Compilations that fail

A compilation reads the layer, the schema and the registry, saves the registry if the schema
declares new permissions, and builds the schema model last. Wherever it fails, the file of the
registry stays as it was, with one exception: when the registry has been saved and the schema
model cannot be built, the new permissions are in the file (`keepsFile_of_compile_eq_error`).
-/

namespace SignalSchema

open Deploy (FlatMap DirectiveMap)

/-- What is read from the files of a project. -/
structure Reading where
  flat : FlatMap
  directives : DirectiveMap
  document : SchemaDocument
  /-- The registry as it is in its file. -/
  registry : Registry

namespace Reading

/-- The registry with the permissions that the document declares. -/
def updated (reading : Reading) : Registry :=
  reading.registry.update reading.document

/-- The output with a schema model. -/
def output (reading : Reading) (schema : Schema) (saved : Bool) : Output where
  schema := schema
  flat := reading.flat
  directives := reading.directives
  registry := reading.updated
  permissionsChanged := reading.updated.changed
  permissionsSaved := saved

end Reading

namespace Project

variable {project : Project} {files files' : Files} {reading : Reading} {e : Fault}

/-! ### Reading and finishing -/

/-- Reads all files of a project. -/
def readAll (project : Project) (files : Files) : Except Fault Reading := do
  let layer ← Layer.load files project.layerPath
  let directives ← DirectiveMap.ofFlatMap (FlatMap.ofTree layer)
  let language ← Language.ofName project.language
  let source ←
    match files.read project.schemaPath with
    | .ok source => .ok source
    | .error e => .error (.file project.schemaPath e)
  let document ← language.read project.schemaPath source
  let registry ← Registry.load files project.permissionsPath
  .ok ⟨FlatMap.ofTree layer, directives, document, registry⟩

/-- What remains to be done when the files have been read: the registry is saved, with
`persist`, and the schema model is built. -/
def finish (project : Project) (persist : Bool) (reading : Reading) : Filing Output := do
  let saved ←
    if persist && reading.updated.changed then
      reading.updated.save project.permissionsPath
    else pure false
  let schema ← Schema.build reading.document reading.directives
  return reading.output schema saved

/-- A run reads all files before it changes any. -/
theorem run_run (project : Project) (persist : Bool) (files : Files) :
    ((project.run persist).run files).run =
      (((liftM (project.readAll files) : Filing Reading) >>= project.finish persist).run
        files).run := by
  rw [run, readAll, Results.run_get_bind]
  refine Results.run_liftM_bind_congr fun layer => ?_
  refine Results.run_liftM_bind_congr fun directives => ?_
  refine Results.run_liftM_bind_congr fun language => ?_
  rw [Results.run_get_bind]
  cases files.read project.schemaPath with
  | error e => rfl
  | ok source =>
    dsimp only
    rw [pure_bind]
    refine Results.run_liftM_bind_congr fun document => ?_
    rw [Results.run_get_bind]
    refine Results.run_liftM_bind_congr fun registry => ?_
    rfl

/-- All files of a project can be read exactly when each of them can. -/
theorem readAll_eq_ok_iff : project.readAll files = .ok reading ↔
    ∃ layer language source, Layer.load files project.layerPath = .ok layer ∧
      reading.flat = FlatMap.ofTree layer ∧
      DirectiveMap.ofFlatMap reading.flat = .ok reading.directives ∧
      Language.ofName project.language = .ok language ∧
      files.read project.schemaPath = .ok source ∧
      language.read project.schemaPath source = .ok reading.document ∧
      Registry.load files project.permissionsPath = .ok reading.registry := by
  constructor
  · intro h
    obtain ⟨layer, hlayer, h⟩ := Results.bind_eq_ok_iff.1 h
    obtain ⟨directives, hdirectives, h⟩ := Results.bind_eq_ok_iff.1 h
    obtain ⟨language, hlanguage, h⟩ := Results.bind_eq_ok_iff.1 h
    split at h
    next source hsource =>
      obtain ⟨_, ⟨⟩, h⟩ := Results.bind_eq_ok_iff.1 h
      obtain ⟨document, hdocument, h⟩ := Results.bind_eq_ok_iff.1 h
      obtain ⟨registry, hload, h⟩ := Results.bind_eq_ok_iff.1 h
      obtain rfl := Except.ok.inj h
      exact ⟨layer, language, source, hlayer, rfl, hdirectives, hlanguage, hsource, hdocument,
        hload⟩
    next => cases h
  · obtain ⟨flat, directives, document, registry⟩ := reading
    rintro ⟨layer, language, source, hlayer, rfl, hdirectives, hlanguage, hsource, hdocument,
      hload⟩
    refine Results.bind_eq_ok_iff.2 ⟨layer, hlayer, ?_⟩
    refine Results.bind_eq_ok_iff.2 ⟨directives, hdirectives, ?_⟩
    refine Results.bind_eq_ok_iff.2 ⟨language, hlanguage, ?_⟩
    rw [hsource]
    refine Results.bind_eq_ok_iff.2 ⟨source, rfl, ?_⟩
    refine Results.bind_eq_ok_iff.2 ⟨document, hdocument, ?_⟩
    exact Results.bind_eq_ok_iff.2 ⟨registry, hload, rfl⟩

/-- The registry of a reading is the one in the file. -/
theorem load_of_readAll (h : project.readAll files = .ok reading) :
    Registry.load files project.permissionsPath = .ok reading.registry := by
  obtain ⟨-, -, -, -, -, -, -, -, -, hload⟩ := readAll_eq_ok_iff.1 h
  exact hload

/-- Building the schema model changes no files. -/
theorem run_build (reading : Reading) (saved : Bool) (files : Files) :
    ((do let schema ← Schema.build reading.document reading.directives
         return reading.output schema saved : Filing Output).run files).run =
      ((Schema.build reading.document reading.directives).map fun schema =>
        reading.output schema saved, files) := by
  rw [Results.run_liftM_bind]
  cases Schema.build reading.document reading.directives with
  | error e => rfl
  | ok schema => rfl

/-- With the files read, a compilation fails because the registry cannot be saved, or because the
schema model cannot be built. In the second case the registry has been saved if it had
changed. -/
theorem finish_eq_error (h : ((project.finish true reading).run files).run = (.error e, files')) :
    reading.updated.changed = false ∧ files' = files ∨
    reading.updated.changed = true ∧
      (((reading.updated.save project.permissionsPath).run files).run = (.error e, files') ∨
      (∃ saved, ((reading.updated.save project.permissionsPath).run files).run =
          (.ok saved, files')) ∧
        Schema.build reading.document reading.directives = .error e) := by
  rw [finish, Bool.true_and] at h
  cases hchanged : reading.updated.changed with
  | false =>
    rw [hchanged, if_neg (by simp), pure_bind, run_build] at h
    exact .inl ⟨rfl, (Prod.mk.inj h).2.symm⟩
  | true =>
    rw [hchanged, if_pos rfl] at h
    refine .inr ⟨rfl, ?_⟩
    obtain h | ⟨saved, middle, hsave, h⟩ := Results.run_bind_eq_error_iff.1 h
    · exact .inl h
    · rw [run_build] at h
      obtain ⟨hbuild, rfl⟩ := Prod.mk.inj h
      refine .inr ⟨⟨saved, hsave⟩, ?_⟩
      cases hresult : Schema.build reading.document reading.directives with
      | ok schema =>
        rw [hresult] at hbuild
        cases hbuild
      | error e' =>
        rw [hresult] at hbuild
        exact congrArg Except.error (Except.error.inj hbuild)

/-- What a run does about its registry: with `persist` it saves it, unless nothing has changed. -/
def saveIf (project : Project) (persist : Bool) (registry : Registry) : Filing Bool :=
  if persist then registry.save project.permissionsPath else pure false

/-- With the files read, a run succeeds exactly when the registry can be saved, with `persist`, and
the schema model can be built. -/
theorem finish_eq_ok_iff {persist : Bool} {output : Output} :
    ((project.finish persist reading).run files).run = (.ok output, files') ↔
      ∃ saved schema,
        ((project.saveIf persist reading.updated).run files).run = (.ok saved, files') ∧
        Schema.build reading.document reading.directives = .ok schema ∧
        output = reading.output schema saved := by
  have hfinish : project.finish persist reading =
      (project.saveIf persist reading.updated >>= fun saved => do
        let schema ← Schema.build reading.document reading.directives
        return reading.output schema saved) := by
    rw [finish, Project.saveIf]
    cases persist with
    | false => rfl
    | true =>
      cases hchanged : reading.updated.changed with
      | false =>
        rw [if_pos rfl, Registry.save_of_not_changed hchanged]
        rfl
      | true => rfl
  rw [hfinish, Results.run_bind_eq_ok_iff]
  constructor
  · rintro ⟨saved, middle, hsaved, h⟩
    rw [run_build] at h
    obtain ⟨hbuild, rfl⟩ := Prod.mk.inj h
    obtain ⟨schema, hschema, rfl⟩ := Results.map_eq_ok_iff.1 hbuild
    exact ⟨saved, schema, hsaved, hschema, rfl⟩
  · rintro ⟨saved, schema, hsaved, hschema, rfl⟩
    refine ⟨saved, files', hsaved, ?_⟩
    rw [run_build, hschema]
    rfl

/-- A run succeeds exactly when the files can be read, the registry can be saved, with `persist`,
and the schema model can be built. -/
theorem run_eq_ok_iff {persist : Bool} {output : Output} :
    ((project.run persist).run files).run = (.ok output, files') ↔
      ∃ reading saved schema, project.readAll files = .ok reading ∧
        ((project.saveIf persist reading.updated).run files).run = (.ok saved, files') ∧
        Schema.build reading.document reading.directives = .ok schema ∧
        output = reading.output schema saved := by
  rw [run_run, Results.run_liftM_bind]
  cases project.readAll files with
  | error e => simp
  | ok reading =>
    dsimp only
    rw [finish_eq_ok_iff]
    constructor
    · rintro ⟨saved, schema, h⟩
      exact ⟨reading, saved, schema, rfl, h⟩
    · rintro ⟨_, saved, schema, ⟨⟩, h⟩
      exact ⟨saved, schema, h⟩

/-! ### The file of the registry -/

/-- The registry gains permissions and is saved, and after that the schema model cannot be
built. -/
structure FailsAfterSave (project : Project) (files : Files) (reading : Reading) : Prop where
  read : project.readAll files = .ok reading
  changed : reading.updated.changed = true
  saved : ∃ saved files', ((reading.updated.save project.permissionsPath).run files).run =
    (.ok saved, files')
  unbuilt : ∃ e, Schema.build reading.document reading.directives = .error e

/-- The text of a registry with new permissions was not in the file when it was loaded. -/
theorem FailsAfterSave.read_ne (h : project.FailsAfterSave files reading)
    (hread : Registry.ReadsBack reading.updated.table) :
    files.read project.permissionsPath ≠ .ok (Registry.tableText reading.updated.table) := by
  intro hbefore
  have hload := load_of_readAll h.read
  have hfile := Registry.load_eq_ofTable hload
  rw [hfile, Registry.load_eq_ok_iff, Registry.stored_of_read hbefore hread] at hload
  have htable : reading.updated.table = reading.registry.table := Except.ok.inj hload
  have hloaded : reading.registry.changed = false := by
    rw [hfile]
    rfl
  obtain ⟨permission, hmem, hnone⟩ :=
    Registry.exists_get?_eq_none_of_changed h.changed hloaded
  have hsome : (reading.updated.get? permission).isSome = true :=
    (reading.registry.isSome_get?_registerAll _).2 (.inr hmem)
  rw [Registry.get?, htable] at hsome
  rw [Registry.get?] at hnone
  rw [hnone] at hsome
  cases hsome

/-- A compilation fails when the schema model cannot be built. -/
theorem exists_compile_eq_error (hread : project.readAll files = .ok reading)
    (hbuild : ∃ e, Schema.build reading.document reading.directives = .error e) :
    ∃ e files', (project.compile.run files).run = (.error e, files') := by
  obtain ⟨e, hbuild⟩ := hbuild
  have hfails : ∀ saved middle, ((do
      let schema ← Schema.build reading.document reading.directives
      return reading.output schema saved : Filing Output).run middle).run =
        (.error e, middle) := by
    intro saved middle
    rw [run_build, hbuild]
    rfl
  rw [compile, run_run, Results.run_liftM_bind, hread]
  dsimp only
  rw [finish, Bool.true_and]
  split
  · rw [Results.run_bind]
    split
    · exact ⟨e, _, hfails _ _⟩
    · exact ⟨_, _, rfl⟩
  · rw [pure_bind]
    exact ⟨e, files, hfails _ _⟩

/-- A compilation that fails after the save leaves the new text in the file. -/
theorem FailsAfterSave.read_eq (h : project.FailsAfterSave files reading)
    (hcompile : (project.compile.run files).run = (.error e, files')) :
    files'.read project.permissionsPath = .ok (Registry.tableText reading.updated.table) := by
  rw [compile, run_run, Results.run_liftM_bind, h.read] at hcompile
  obtain ⟨hchanged, -⟩ | ⟨hchanged, hsave | ⟨⟨saved, hsave⟩, -⟩⟩ := finish_eq_error hcompile
  · rw [h.changed] at hchanged
    cases hchanged
  · obtain ⟨saved, files'', hsaved⟩ := h.saved
    rw [hsave] at hsaved
    cases hsaved
  · exact Registry.read_of_save hsave hchanged

/-- A compilation that fails leaves the file of the registry as it was, unless it fails after a
save. In that case, the file has the text with the new permissions, which it did not have
before. -/
theorem keepsFile_of_compile_eq_error (h : (project.compile.run files).run = (.error e, files')) :
    ((¬ ∃ reading, project.FailsAfterSave files reading) →
      Files.KeepsFile project.permissionsPath files files') ∧
    ∀ reading, project.FailsAfterSave files reading →
      files'.read project.permissionsPath = .ok (Registry.tableText reading.updated.table) ∧
      (Registry.ReadsBack reading.updated.table →
        files.read project.permissionsPath ≠ files'.read project.permissionsPath) := by
  constructor
  · intro hnot
    rw [compile, run_run, Results.run_liftM_bind] at h
    cases hread : project.readAll files with
    | error reason =>
      rw [hread] at h
      obtain rfl : files = files' := (Prod.mk.inj h).2
      exact .refl _ _
    | ok reading =>
      rw [hread] at h
      obtain ⟨-, rfl⟩ | ⟨hchanged, hsave | ⟨⟨saved, hsave⟩, hbuild⟩⟩ := finish_eq_error h
      · exact .refl _ _
      · exact Registry.keepsFile_of_save_eq_error hsave
      · exact absurd ⟨reading, hread, hchanged, ⟨saved, files', hsave⟩, e, hbuild⟩ hnot
  · intro reading hfails
    have hafter := hfails.read_eq h
    refine ⟨hafter, fun hreadsBack => ?_⟩
    rw [hafter]
    exact hfails.read_ne hreadsBack

/-! ### A schema with an interface -/

/-- A schema that declares a permission and has an interface. -/
def interfaceSource : String :=
  "directive @hasPermissions(permissions:[String])on FIELD_DEFINITION interface I{a:Int}" ++
    r#"type Query{a:Int@hasPermissions(permissions:["P"])}"#

/-- A project with the schema in `s`, the layer in `l` and the registry in `p`. -/
def interfaceProject : Project where
  schemaPath := "s"
  layerPath := "l"
  permissionsPath := "p"
  language := "graphql"

/-- The files of the project before it was compiled for the first time. -/
def interfaceFiles : Files :=
  ((Files.empty "/h").setAt ["s"] (.text interfaceSource)).setAt ["l"] (.text "")

/-- Where only one permission is declared, the order of the definitions does not matter. -/
theorem declaredPermissions_eq_singleton {document : SchemaDocument} {permission : String}
    (h : (document.types.values.flatMap fun definition =>
      definition.body.fieldDirectives.flatMap fun directives =>
        (Permissions.ofDirectives directives).getD []) = [permission]) :
    document.declaredPermissions = [permission] := by
  have hperm : document.declaredPermissions.Perm [permission] := by
    rw [← h]
    exact List.Perm.flatMap_right _ (List.mergeSort_perm _ _)
  exact List.perm_singleton.1 hperm

set_option maxRecDepth 10000 in
/-- The schema has an interface, and `P` is the only permission that it declares. -/
theorem exists_document_interfaceSource : ∃ document,
    Sdl.document? interfaceSource = some document ∧ document.declaredPermissions = ["P"] ∧
      ∃ definition ∈ document.types.values, definition.body = .interface := by
  have hview : (Sdl.document? interfaceSource).map (fun document =>
      (document.types.values.flatMap fun definition =>
        definition.body.fieldDirectives.flatMap fun directives =>
          (Permissions.ofDirectives directives).getD [],
      document.types.values.any fun definition =>
        match definition.body with
        | .interface => true
        | _ => false)) = some (["P"], true) := by decide +kernel
  obtain ⟨document, hdocument, hview⟩ := Option.map_eq_some_iff.1 hview
  obtain ⟨hpermissions, hinterface⟩ := Prod.mk.inj hview
  obtain ⟨definition, hmem, hbody⟩ := List.any_eq_true.1 hinterface
  refine ⟨document, hdocument, ?_, definition, hmem, ?_⟩
  · exact declaredPermissions_eq_singleton hpermissions
  · split at hbody
    · assumption
    · cases hbody

/-- A file of the project is found in the home directory. -/
theorem canonical_name (name : String) (hhome : files.home = "/h")
    (hpieces : Path.pieces name = [name]) (habsolute : Path.isAbsolute name = false)
    (hname : name ≠ "" ∧ name ≠ "." ∧ name ≠ "..") (hat : (files.at? [name]).isSome = true) :
    files.locate name = .ok [name] ∧
      (Layer.sources files).canonical name = .ok ("/".intercalate ["/h", name]) := by
  have hlocate := Files.locate_name (Session.pieces?_name hhome hpieces habsolute) hname hat
  refine ⟨hlocate, ?_⟩
  change (files.locate name).map files.fullPath = _
  rw [hlocate, Except.map, Files.fullPath, hhome]

/-- The layer of the project is found in the home directory, and its value is null if it is
empty. -/
theorem value?_layer (hhome : files.home = "/h") (hl : files.at? ["l"] = some (.text "")) :
    (Layer.sources files).canonical "l" = .ok "/h/l" ∧
      (Layer.sources files).value? "/h/l" = some .null := by
  have hcanonical :=
    (canonical_name "l" hhome (by cbv) (by decide +kernel) (by decide) (by rw [hl]; rfl)).2
  have hfull : files.pieces? "/h/l" = some ["l"] := by
    rw [Files.pieces?, hhome]
    cbv
  have hread : files.read "/h/l" = .ok "" :=
    Files.read_eq_ok_iff.2 ⟨_, Files.locate_name hfull (by decide) (by rw [hl]; rfl), hl⟩
  refine ⟨hcanonical, ?_⟩
  change (files.read "/h/l").toOption.bind Yaml.Value.parse? = some .null
  rw [hread]
  rfl

/-- The files of the project can be read when its schema has a document and its layer is empty,
whatever registry the project has. -/
theorem readAll_interfaceProject {registry : Registry} {source : String}
    {document : SchemaDocument} (hhome : files.home = "/h")
    (hs : files.at? ["s"] = some (.text source)) (hl : files.at? ["l"] = some (.text ""))
    (hload : Registry.load files "p" = .ok registry)
    (hdocument : Sdl.document? source = some document) :
    interfaceProject.readAll files =
      .ok ⟨FlatMap.ofTree .null, Table.empty, document, registry⟩ := by
  obtain ⟨hcanonical, hvalue⟩ := value?_layer hhome hl
  have hlayer : Layer.load files "l" = .ok .null :=
    Layer.Sources.load_eq_ofValue hcanonical hvalue
  have hslocate :=
    (canonical_name "s" hhome (by cbv) (by decide +kernel) (by decide) (by rw [hs]; rfl)).1
  have hlanguage : Language.graphql.read "s" source = .ok document := by
    rw [Language.read, hdocument]
  exact readAll_eq_ok_iff.2 ⟨.null, .graphql, source, hlayer, rfl, rfl, rfl,
    Files.read_eq_ok_iff.2 ⟨_, hslocate, hs⟩, hlanguage, hload⟩

/-- Whatever registry the project has, its files can be read and its schema model cannot be
built. -/
theorem exists_readAll_interfaceProject {registry : Registry} (hhome : files.home = "/h")
    (hs : files.at? ["s"] = some (.text interfaceSource)) (hl : files.at? ["l"] = some (.text ""))
    (hload : Registry.load files "p" = .ok registry) :
    ∃ reading, interfaceProject.readAll files = .ok reading ∧
      reading.updated = registry.registerAll ["P"] ∧
      ∃ e, Schema.build reading.document reading.directives = .error e := by
  obtain ⟨document, hdocument, hpermissions, definition, hmem, hbody⟩ :=
    exists_document_interfaceSource
  refine ⟨_, readAll_interfaceProject hhome hs hl hload hdocument, ?_, ?_⟩
  · rw [Reading.updated, Registry.update, hpermissions]
  · exact Schema.exists_build_eq_error hmem (.inl hbody) Table.empty

/-- Where `P` has a number already, the failing compilation leaves the file as it was. -/
theorem keepsFile_of_compile_interfaceProject : ∃ files e files',
    files.read "p" = .ok "P: 0\n" ∧ (interfaceProject.compile.run files).run = (.error e, files') ∧
      (¬ ∃ reading, interfaceProject.FailsAfterSave files reading) ∧
      Files.KeepsFile "p" files files' ∧ files'.read "p" = .ok "P: 0\n" := by
  let files := interfaceFiles.setAt ["p"] (.text "P: 0\n")
  have hp : files.at? ["p"] = some (.text "P: 0\n") := rfl
  have hlocate : files.locate "p" = .ok ["p"] :=
    Files.locate_name (Session.pieces?_p rfl).1 (by decide) rfl
  have hread : files.read "p" = .ok "P: 0\n" := Files.read_eq_ok_iff.2 ⟨_, hlocate, hp⟩
  have hentries : (Registry.table? "P: 0\n").map Table.entries = some [("P", 0)] := by
    decide +kernel
  obtain ⟨table, htable, hentries⟩ := Option.map_eq_some_iff.1 hentries
  have hload := Registry.load_eq_ok_iff.2 (Registry.stored_of_read hread htable)
  obtain ⟨found, hfound, hupdated, hbuild⟩ := exists_readAll_interfaceProject rfl rfl rfl hload
  have hsame : (Registry.ofTable table).registerAll ["P"] = Registry.ofTable table := by
    have hget : ((Registry.ofTable table).get? "P").isSome = true := by
      rw [Registry.get?, Registry.ofTable, Table.get?, hentries]
      rfl
    exact if_pos hget
  have hnot : ¬ ∃ reading, interfaceProject.FailsAfterSave files reading := by
    rintro ⟨reading, hfails⟩
    obtain rfl : found = reading := Except.ok.inj (hfound.symm.trans hfails.read)
    have hchanged := hfails.changed
    rw [hupdated, hsame] at hchanged
    cases hchanged
  obtain ⟨e, files', hcompile⟩ := exists_compile_eq_error hfound hbuild
  have hkeeps : Files.KeepsFile "p" files files' :=
    (keepsFile_of_compile_eq_error hcompile).1 hnot
  exact ⟨files, e, files', hread, hcompile, hnot, hkeeps, hkeeps.read_eq hread⟩

/-- The first compilation fails because of the interface, and still makes the file of the
registry. -/
theorem exists_registry_saved_by_failing_compile : ∃ e files',
    (interfaceProject.compile.run interfaceFiles).run = (.error e, files') ∧
      interfaceFiles.read "p" = .error .notFound ∧ files'.read "p" = .ok "P: 0\n" := by
  have hlocate : interfaceFiles.locate "p" = .error .notFound :=
    Files.locate_name_of_none (Session.pieces?_p rfl).1 (by decide) rfl
  have hload : Registry.load interfaceFiles "p" = .ok Registry.empty := by
    rw [Registry.load, Files.exists?, hlocate]
    rfl
  obtain ⟨reading, hread, hupdated, hbuild⟩ := exists_readAll_interfaceProject rfl rfl rfl hload
  have hchanged : reading.updated.changed = true := by
    rw [hupdated]
    rfl
  have hfails : interfaceProject.FailsAfterSave interfaceFiles reading :=
    ⟨hread, hchanged, ⟨_, _, Session.run_save_p rfl hchanged (by decide) (by decide)⟩, hbuild⟩
  obtain ⟨e, files', hcompile⟩ := exists_compile_eq_error hread hbuild
  have htext : Registry.tableText reading.updated.table = "P: 0\n" := by
    rw [hupdated]
    decide +kernel
  refine ⟨e, files', hcompile, ?_, ?_⟩
  · rw [Files.read, hlocate]
    rfl
  · rw [← htext]
    exact hfails.read_eq hcompile

end Project

end SignalSchema
