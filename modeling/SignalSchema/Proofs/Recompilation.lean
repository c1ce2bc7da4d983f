import SignalSchema.Proofs.Compilation
import SignalSchema.Proofs.Layer.Agreement
import SignalSchema.Proofs.Schema.Faults

/-!
# Compiling again

A compilation may change one thing that the next one reads: the file of the registry. As long as
this file and its sibling are none of the files that are read otherwise (`RegistryApart`), a second
run reads what the first one read, together with the table that the first one ended with. All
permissions have numbers in it, so that nothing is left to be registered or saved
(`run_again_of_compile`).
-/

namespace SignalSchema

open Deploy (FlatMap DirectiveMap)
open Relation (ReflTransGen)

/-- The full path of the file that a path names, which need not exist. -/
def Files.canonicalNew (files : Files) (path : String) : Except FileError String :=
  (files.locateNew path).map files.fullPath

namespace Project

variable {project : Project} {files files' : Files} {reading : Reading} {output : Output}
  {file path content : String} {keys : List String}

/-- The full paths of the files that a run reads besides the registry: the schema, and the layer
with all files that can be reached from it through includes. -/
def IsSource (project : Project) (files : Files) (file : String) : Prop :=
  (Layer.sources files).canonical project.schemaPath = .ok file ∨
    ∃ root, (Layer.sources files).canonical project.layerPath = .ok root ∧
      ReflTransGen (Layer.sources files).Includes root file

/-- Where the files have come to be `files'`, the file of the registry and its sibling are not
among the sources that there were at first. -/
structure RegistryApart (project : Project) (files files' : Files) : Prop where
  own : ∀ file, project.IsSource files file →
    files'.canonicalNew project.permissionsPath ≠ .ok file
  sibling : ∀ file, project.IsSource files file →
    files'.canonicalNew (Path.withExtension project.permissionsPath "tmp") ≠ .ok file

/-! ### Sources stay -/

/-- A path names a full path where it leads to a place with this full path. -/
theorem canonical_eq_ok_iff : (Layer.sources files).canonical path = .ok file ↔
    ∃ place, files.locate path = .ok place ∧ files.fullPath place = file := by
  change (files.locate path).map files.fullPath = .ok file ↔ _
  exact Results.map_eq_ok_iff

/-- A text under a full path is at the place of every path that names the full path. -/
theorem at?_of_canonical (hcanonical : (Layer.sources files).canonical path = .ok file)
    (hread : files.read file = .ok content) :
    ∃ place, files.locate path = .ok place ∧ files.locate file = .ok place ∧
      files.fullPath place = file ∧ files.at? place = some (.text content) := by
  obtain ⟨place, hplace, rfl⟩ := canonical_eq_ok_iff.1 hcanonical
  obtain ⟨found, hfound, hat⟩ := Files.read_eq_ok_iff.1 hread
  have hfull := Files.locate_fullPath hplace (Files.locate_eq_ok_iff.1 hfound).1
  obtain rfl : found = place := Except.ok.inj (hfound.symm.trans hfull)
  exact ⟨found, hplace, hfull, rfl, hat⟩

/-- The sources lie apart from what a save of the registry changes. -/
theorem RegistryApart.key_notMem {sibling target : Files.Place}
    (h : project.RegistryApart files files')
    (hchanges : Files.ChangesOnly [sibling.key, target.key] files files')
    (hsibling : files'.locateNew (Path.withExtension project.permissionsPath "tmp") = .ok sibling)
    (htarget : files'.locateNew project.permissionsPath = .ok target)
    (hsiblingNil : sibling ≠ []) (htargetNil : target ≠ []) {place : Files.Place}
    (hsource : project.IsSource files (files.fullPath place)) (hne : place ≠ []) :
    place.key ∉ [sibling.key, target.key] := by
  intro hkey
  rw [List.mem_cons, List.mem_singleton] at hkey
  rcases hkey with hkey | hkey
  · refine h.sibling _ hsource ?_
    rw [Files.canonicalNew, hsibling, Except.map, hchanges.fullPath_eq,
      Files.fullPath_eq_of_key_eq hne hsiblingNil hkey]
  · refine h.own _ hsource ?_
    rw [Files.canonicalNew, htarget, Except.map, hchanges.fullPath_eq,
      Files.fullPath_eq_of_key_eq hne htargetNil hkey]

/-- The files that can be reached from one with a layer are the same after changes apart from
them. -/
theorem agrees_of_changesOnly {root : String} {layer : Json}
    (h : Files.ChangesOnly keys files files') (hlayer : Layer.load files path = .ok layer)
    (hroot : (Layer.sources files).canonical path = .ok root)
    (hapart : ∀ place, ReflTransGen (Layer.sources files).Includes root (files.fullPath place) →
      place ≠ [] → place.key ∉ keys) :
    (Layer.sources files).Agrees (Layer.sources files')
      (ReflTransGen (Layer.sources files).Includes root) := by
  -- whatever can be reached is found under some path, and has a text
  have hplace : ∀ file, ReflTransGen (Layer.sources files).Includes root file →
      ∃ place content, files.locate file = .ok place ∧ files.fullPath place = file ∧
        files.at? place = some (.text content) ∧ place.key ∉ keys ∧
        ∀ other, (Layer.sources files).canonical other = .ok file →
          files.locate other = .ok place := by
    intro file hfile
    obtain ⟨root', hroot', hloadable⟩ := Layer.Sources.exists_load_eq_ok_iff.1 ⟨layer, hlayer⟩
    obtain rfl := Except.ok.inj (hroot.symm.trans hroot')
    obtain ⟨value, hvalue, -⟩ := hloadable.sound file hfile
    obtain ⟨content, hread, -⟩ := Option.bind_eq_some_iff.1 hvalue
    have hread : files.read file = .ok content := Results.toOption_eq_some_iff.1 hread
    have hnamed : ∃ named, (Layer.sources files).canonical named = .ok file := by
      rcases hfile.cases_tail with rfl | ⟨_, -, _, _, -, -, hcanonical⟩
      · exact ⟨path, hroot⟩
      · exact ⟨_, hcanonical⟩
    obtain ⟨named, hnamed⟩ := hnamed
    obtain ⟨place, -, hlocate, rfl, hat⟩ := at?_of_canonical hnamed hread
    have hne : place ≠ [] := Files.ne_nil_of_at?_ne_directory (by rw [hat]; simp)
    refine ⟨place, content, hlocate, rfl, hat, hapart place hfile hne, fun other hother => ?_⟩
    obtain ⟨found, hfound, hlocate', -, -⟩ := at?_of_canonical hother hread
    obtain rfl : found = place := Except.ok.inj (hlocate'.symm.trans hlocate)
    exact hfound
  refine ⟨fun file hfile target hincludes => hfile.tail hincludes, ?_, ?_⟩
  · intro other file hfile hcanonical
    obtain ⟨place, content, -, hfull, hat, hkey, hothers⟩ := hplace file hfile
    exact canonical_eq_ok_iff.2 ⟨place, h.locate_eq hkey hat (hothers other hcanonical),
      (h.fullPath_eq place).trans hfull⟩
  · intro file hfile
    obtain ⟨place, content, hlocate, -, hat, hkey, -⟩ := hplace file hfile
    have hread : files.read file = .ok content := Files.read_eq_ok_iff.2 ⟨place, hlocate, hat⟩
    change (files'.read file).toOption.bind _ = (files.read file).toOption.bind _
    rw [hread, h.read_eq hkey hat hlocate]
    rfl

/-! ### The second reading -/

/-- What is read after a save is what was read before, with the table that was saved. -/
theorem readAll_of_save {saved : Bool} (hread : project.readAll files = .ok reading)
    (hsave : ((reading.updated.save project.permissionsPath).run files).run = (.ok saved, files'))
    (hchanged : reading.updated.changed = true) (hapart : project.RegistryApart files files')
    (hreads : Registry.ReadsBack reading.updated.table) :
    project.readAll files' =
      .ok { reading with registry := Registry.ofTable reading.updated.table } := by
  obtain ⟨layer, language, source, hlayer, hflat, hdirectives, hlanguage, hsource, hdocument, -⟩ :=
    readAll_eq_ok_iff.1 hread
  obtain ⟨sibling, target, hsibling, htarget, hsiblingNil, htargetNil, hchanges⟩ :=
    Registry.changesOnly_of_save hsave hchanged
  have hkey : ∀ place, project.IsSource files (files.fullPath place) → place ≠ [] →
      place.key ∉ [sibling.key, target.key] := fun place =>
    hapart.key_notMem hchanges hsibling htarget hsiblingNil htargetNil
  obtain ⟨root, hroot, -⟩ := Layer.Sources.exists_load_eq_ok_iff.1 ⟨layer, hlayer⟩
  have hagrees := agrees_of_changesOnly hchanges hlayer hroot fun place hplace =>
    hkey place (.inr ⟨root, hroot, hplace⟩)
  have hlayer' : Layer.load files' project.layerPath = .ok layer := by
    refine Layer.Sources.load_eq_of_agrees hlayer hagrees fun root' hroot' => ?_
    obtain rfl := Except.ok.inj (hroot.symm.trans hroot')
    exact .refl
  have hsource' : files'.read project.schemaPath = .ok source := by
    obtain ⟨place, hlocate, hat⟩ := Files.read_eq_ok_iff.1 hsource
    have hne : place ≠ [] := Files.ne_nil_of_at?_ne_directory (by rw [hat]; simp)
    have hschema : project.IsSource files (files.fullPath place) :=
      .inl (canonical_eq_ok_iff.2 ⟨place, hlocate, rfl⟩)
    exact hchanges.read_eq (hkey place hschema hne) hat hlocate
  exact readAll_eq_ok_iff.2 ⟨layer, language, source, hlayer', hflat, hdirectives, hlanguage,
    hsource', hdocument, Registry.load_eq_ok_iff.2 (Registry.stored_of_save hsave hchanged hreads)⟩

/-- What is read after a compilation is what the compilation read, with the table that it ended
with. -/
theorem readAll_of_compile {saved : Bool} (hread : project.readAll files = .ok reading)
    (hsave : ((reading.updated.save project.permissionsPath).run files).run = (.ok saved, files'))
    (hapart : project.RegistryApart files files')
    (hreads : reading.updated.changed = true → Registry.ReadsBack reading.updated.table) :
    project.readAll files' =
      .ok { reading with registry := Registry.ofTable reading.updated.table } := by
  obtain ⟨hunchanged, rfl⟩ | ⟨hchanged, -⟩ := Registry.save_eq_ok hsave
  · -- nothing was registered and nothing was written
    have hsame : reading.updated = reading.registry :=
      Registry.registerAll_eq_of_not_changed hunchanged
    rw [hsame, ← Registry.load_eq_ofTable (load_of_readAll hread)]
    exact hread
  · exact readAll_of_save hread hsave hchanged hapart (hreads hchanged)

/-- A run on files in which all declared permissions have numbers registers nothing and writes
nothing. -/
theorem run_eq_of_known {schema : Schema} (hread : project.readAll files = .ok reading)
    (hschema : Schema.build reading.document reading.directives = .ok schema)
    (hknown : reading.updated = reading.registry) (persist : Bool) :
    ((project.run persist).run files).run = (.ok (reading.output schema false), files) := by
  have hchanged : reading.updated.changed = false := by
    rw [hknown, Registry.load_eq_ofTable (load_of_readAll hread)]
    rfl
  refine run_eq_ok_iff.2 ⟨reading, false, schema, hread, ?_, hschema, rfl⟩
  rw [saveIf, Registry.save_of_not_changed hchanged, ite_self]
  rfl

/-! ### A schema with a permission -/

/-- A schema that declares a permission. -/
def permissionSource : String :=
  "directive @hasPermissions(permissions:[String])on FIELD_DEFINITION " ++
    r#"type Query{a:Int@hasPermissions(permissions:["P"])}"#

/-- The files of the project before it was compiled for the first time. -/
def permissionFiles : Files :=
  ((Files.empty "/h").setAt ["s"] (.text permissionSource)).setAt ["l"] (.text "")

set_option maxRecDepth 10000 in
/-- `P` is the only permission that the schema declares, and its schema model can be built. -/
theorem exists_document_permissionSource : ∃ document,
    Sdl.document? permissionSource = some document ∧ document.declaredPermissions = ["P"] ∧
      ∀ directives, ∃ schema, Schema.build document directives = .ok schema := by
  have hview : (Sdl.document? permissionSource).map (fun document =>
      (document.types.values.flatMap fun definition =>
        definition.body.fieldDirectives.flatMap fun directives =>
          (Permissions.ofDirectives directives).getD [],
      decide (∀ e ∈ document.types.entries, e.2.name = e.1),
      decide (∀ d ∈ document.types.values, ¬ d.IsUnsupported ∧
        ∀ name ∈ d.body.referenceNames, document.declares name = true))) =
        some (["P"], true, true) := by decide +kernel
  obtain ⟨document, hdocument, hview⟩ := Option.map_eq_some_iff.1 hview
  obtain ⟨hpermissions, hview⟩ := Prod.mk.inj hview
  obtain ⟨hkeyed, hdeclared⟩ := Prod.mk.inj hview
  have hkeyed : ∀ e ∈ document.types.entries, e.2.name = e.1 := of_decide_eq_true hkeyed
  exact ⟨document, hdocument, declaredPermissions_eq_singleton hpermissions,
    Schema.exists_build_eq_ok hkeyed (of_decide_eq_true hdeclared)⟩

/-- In a project with an empty layer, the registry lies apart from the sources. -/
theorem registryApart_interfaceProject (hhome : files.home = "/h")
    (hs : (files.at? ["s"]).isSome = true) (hl : files.at? ["l"] = some (.text ""))
    (hhome' : files'.home = "/h") : interfaceProject.RegistryApart files files' := by
  have hsources : ∀ file, interfaceProject.IsSource files file → file = "/h/s" ∨ file = "/h/l" := by
    rintro file (hschema | ⟨root, hroot, hreach⟩)
    · have hcanonical := (canonical_name "s" hhome (by cbv) (by decide +kernel) (by decide) hs).2
      exact .inl (Except.ok.inj (hschema.symm.trans hcanonical))
    · obtain ⟨hcanonical, hvalue⟩ := value?_layer hhome hl
      obtain rfl := Except.ok.inj (hroot.symm.trans hcanonical)
      -- an empty layer includes no file
      rcases hreach.cases_head with rfl | ⟨next, ⟨value, relative, hvalue', hmem, -⟩, -⟩
      · exact .inr rfl
      · obtain rfl := Option.some.inj (hvalue.symm.trans hvalue')
        cases hmem
  have hname : ∀ name, name ≠ "" ∧ name ≠ "." ∧ name ≠ ".." → files'.pieces? name = some [name] →
      files'.canonicalNew name = .ok ("/".intercalate ["/h", name]) := by
    intro name hname hpieces
    rw [Files.canonicalNew, Files.locateNew_name hpieces hname, Except.map, Files.fullPath, hhome']
  obtain ⟨hp, htmp⟩ := Session.pieces?_p hhome'
  constructor
  · intro file hfile heq
    change files'.canonicalNew "p" = .ok file at heq
    rw [hname "p" (by decide) hp] at heq
    obtain rfl := Except.ok.inj heq
    exact absurd (hsources _ hfile) (by decide)
  · intro file hfile heq
    change files'.canonicalNew (Path.withExtension "p" "tmp") = .ok file at heq
    rw [Session.withExtension_p, hname "p.tmp" (by decide) htmp] at heq
    obtain rfl := Except.ok.inj heq
    exact absurd (hsources _ hfile) (by decide)

/-- A registry with `P` is read back from its text. -/
theorem readsBack_permission : Registry.ReadsBack (Registry.empty.registerAll ["P"]).table :=
  Registry.readsBack_iff.2 (by decide +kernel)

/-- The first compilation of the project saves the registry with `P`. -/
theorem exists_compile_permissionSource (hhome : files.home = "/h")
    (hs : files.at? ["s"] = some (.text permissionSource))
    (hl : files.at? ["l"] = some (.text "")) (hp : files.at? ["p"] = none)
    (htmp : files.at? ["p.tmp"] = none) :
    ∃ reading schema, interfaceProject.readAll files = .ok reading ∧
      reading.registry = Registry.empty ∧ reading.flat = FlatMap.ofTree .null ∧
      reading.document.declaredPermissions = ["P"] ∧
      reading.updated = Registry.empty.registerAll ["P"] ∧
      (interfaceProject.compile.run files).run = (.ok (reading.output schema true),
        Session.savedFiles files (Registry.empty.registerAll ["P"]).table) := by
  obtain ⟨document, hdocument, hpermissions, hbuild⟩ := exists_document_permissionSource
  have hlocate : files.locate "p" = .error .notFound :=
    Files.locate_name_of_none (Session.pieces?_p hhome).1 (by decide) hp
  have hload : Registry.load files "p" = .ok Registry.empty := by
    rw [Registry.load, Files.exists?, hlocate]
    rfl
  have hread := readAll_interfaceProject hhome hs hl hload hdocument
  obtain ⟨schema, hschema⟩ := hbuild Table.empty
  have hupdated : Registry.update Registry.empty document = Registry.empty.registerAll ["P"] := by
    rw [Registry.update, hpermissions]
  refine ⟨_, schema, hread, rfl, rfl, hpermissions, hupdated, ?_⟩
  refine run_eq_ok_iff.2 ⟨_, true, schema, hread, ?_, hschema, rfl⟩
  have hchanged : (Registry.empty.registerAll ["P"]).changed = true := rfl
  rw [Reading.updated, hupdated, saveIf, if_pos rfl]
  exact Session.run_save_p hhome hchanged (by rw [hp]; decide) (by rw [htmp]; decide)

/-! ### The second run -/

/-- Compiling again changes nothing. When a compilation succeeds, with the registry and its sibling
apart from the sources and its table read back from what was written, then another compilation of
the files that it leaves, or a check, succeeds as well. It reports no change and no save, leaves
all files as they are, and yields the same schema model, flat map, directives and table of
permissions. -/
theorem run_again_of_compile (h : (project.compile.run files).run = (.ok output, files'))
    (hapart : project.RegistryApart files files')
    (hreads : output.permissionsChanged = true → Registry.ReadsBack output.registry.table) :
    ∃ again : Output, (project.compile.run files').run = (.ok again, files') ∧
      (project.check.run files').run = (.ok again, files') ∧
      again.permissionsChanged = false ∧ again.permissionsSaved = false ∧
      again.schema = output.schema ∧ again.flat = output.flat ∧
      again.directives = output.directives ∧ again.registry.table = output.registry.table := by
  obtain ⟨reading, saved, schema, hread, hsave, hschema, rfl⟩ := run_eq_ok_iff.1 h
  have hread' := readAll_of_compile hread hsave hapart hreads
  -- all permissions that the document declares have numbers in the table
  have hknown : Registry.update (.ofTable reading.updated.table) reading.document =
      .ofTable reading.updated.table := by
    refine Registry.registerAll_eq_of_isSome fun permission hmem => ?_
    exact (reading.registry.isSome_get?_registerAll _).2 (.inr hmem)
  have hchanged := congrArg Registry.changed hknown
  have htable := congrArg Registry.table hknown
  have hrun := run_eq_of_known hread' hschema hknown
  exact ⟨_, hrun true, hrun false, hchanged, rfl, rfl, rfl, rfl, htable⟩

/-- The first compilation saves the number of `P`, and a check after it has nothing to do. -/
theorem run_again_of_compile_permissionSource : ∃ output again files',
    (interfaceProject.compile.run permissionFiles).run = (.ok output, files') ∧
      output.permissionsChanged = true ∧ output.permissionsSaved = true ∧
      interfaceProject.RegistryApart permissionFiles files' ∧
      Registry.ReadsBack output.registry.table ∧
      (interfaceProject.check.run files').run = (.ok again, files') ∧
      again.permissionsChanged = false ∧ again.permissionsSaved = false ∧
      again.registry.table.entries = [("P", 0)] := by
  obtain ⟨reading, schema, -, -, -, -, hupdated, hcompile⟩ :=
    @exists_compile_permissionSource permissionFiles rfl rfl rfl rfl rfl
  have hapart : interfaceProject.RegistryApart permissionFiles
      (Session.savedFiles permissionFiles (Registry.empty.registerAll ["P"]).table) :=
    registryApart_interfaceProject rfl rfl rfl rfl
  have hreads : Registry.ReadsBack (reading.output schema true).registry.table := by
    change Registry.ReadsBack reading.updated.table
    rw [hupdated]
    exact readsBack_permission
  obtain ⟨again, -, hcheck, hchanged, hsaved, -, -, -, htable⟩ :=
    run_again_of_compile hcompile hapart fun _ => hreads
  refine ⟨_, again, _, hcompile, ?_, rfl, hapart, hreads, hcheck, hchanged, hsaved, ?_⟩
  · exact congrArg Registry.changed hupdated
  · rw [htable]
    exact congrArg (fun registry : Registry => registry.table.entries) hupdated

end Project

end SignalSchema
