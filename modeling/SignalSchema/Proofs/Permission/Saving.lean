import SignalSchema.Permission.File
import SignalSchema.Proofs.Files.Frame
import SignalSchema.Proofs.Files.FullPath

/-!
# Saving a registry

What a save leaves in the file is what the next load finds (`stored_of_save`). The table takes
the way through a sibling of the file; directories that are made on the way, and what was in
the file before, make no difference.

That a text is read back as the table it was written for is a property of single tables
(`ReadsBack`). Numbers below `2 ^ 32` are part of it, since a text with a greater number is
refused.
-/

namespace SignalSchema

namespace Registry

variable {registry : Registry} {files files' : Files} {path : String} {saved : Bool}
  {table : Table Nat}

/-- A table that is read back from its text. -/
def ReadsBack (table : Table Nat) : Prop :=
  table? (tableText table) = some table

/-- A table is read back when its entries are. -/
theorem readsBack_iff :
    ReadsBack table ↔ (table? (tableText table)).map Table.entries = some table.entries := by
  constructor
  · intro h
    rw [ReadsBack] at h
    rw [h]
    rfl
  · intro h
    obtain ⟨found, hfound, heq⟩ := Option.map_eq_some_iff.1 h
    rw [ReadsBack, hfound, Table.ext heq]

/-- The table in the file at a path, empty when there is no file. -/
def stored (path : String) (files : Files) : Except Fault (Table Nat) :=
  (load files path).map Registry.table

/-- A loaded registry is made from the table in its file. -/
theorem load_eq_ofTable (h : load files path = .ok registry) :
    registry = ofTable registry.table := by
  rw [load] at h
  split at h
  · split at h
    · cases h
    · split at h
      · rw [← Except.ok.inj h]
        rfl
      · cases h
  · rw [← Except.ok.inj h]
    rfl

/-- Loading makes a registry from the table in the file. -/
theorem load_eq_ok_iff :
    load files path = .ok (ofTable table) ↔ stored path files = .ok table := by
  rw [stored, Results.map_eq_ok_iff]
  constructor
  · intro h
    exact ⟨_, h, rfl⟩
  · rintro ⟨registry, h, rfl⟩
    rw [← load_eq_ofTable h]
    exact h

/-- What is stored at a path is what a text there is read as. -/
theorem stored_of_read {source : String}
    (hread : files.read path = .ok source) (htable : table? source = some table) :
    stored path files = .ok table := by
  rw [← load_eq_ok_iff, load, if_pos (Files.exists?_of_read hread), hread]
  dsimp only
  rw [htable]

/-! ### Saving -/

/-- What a file operation does. When it fails, it changes nothing. -/
theorem run_perform (path : String) (operation : Files → Except FileError Files)
    (files : Files) : ((perform path operation).run files).run =
      match operation files with
      | .ok files' => (.ok (), files')
      | .error e => (.error (.file path e), files) := by
  have hget : ((perform path operation).run files).run =
      ((match operation files with
        | .ok files' => set files'
        | .error e => throw (.file path e) : Filing Unit).run files).run := rfl
  rw [hget]
  cases operation files with
  | ok files' => rfl
  | error e => rfl

/-- A file operation succeeds exactly when it can be carried out. -/
theorem run_perform_eq_ok_iff {operation : Files → Except FileError Files} {u : Unit} :
    ((perform path operation).run files).run = (.ok u, files') ↔
      operation files = .ok files' := by
  rw [run_perform]
  cases operation files with
  | ok result => simp
  | error e => simp

/-- A file operation that cannot be carried out changes nothing. -/
theorem run_perform_eq_error {operation : Files → Except FileError Files} {e : Fault}
    (h : ((perform path operation).run files).run = (.error e, files')) :
    files' = files ∧ ∃ reason, operation files = .error reason := by
  rw [run_perform] at h
  split at h
  · cases h
  · rename_i reason hreason
    exact ⟨(Prod.mk.inj h).2.symm, reason, hreason⟩

/-- Makes the directory of a path, with those above it. -/
def makeParent (path : String) : Filing Unit :=
  match Path.parent? path with
  | some above =>
    if above ≠ "" then
      perform above fun files => files.makeDirectories above (Path.pieces above).length
    else pure ()
  | none => pure ()

/-- A save without changes does nothing. -/
theorem save_of_not_changed (h : registry.changed = false) :
    registry.save path = pure false := by
  rw [save, h]
  rfl

/-- A save after a change writes the table to a sibling, which then takes the place of the
file. -/
theorem save_of_changed (h : registry.changed = true) : registry.save path = (do
    makeParent path
    perform (Path.withExtension path "tmp") fun files =>
      files.write (Path.withExtension path "tmp") (tableText registry.table)
    perform path fun files => files.rename (Path.withExtension path "tmp") path
    return true) := by
  rw [save, h, makeParent]
  cases Path.parent? path with
  | none => rfl
  | some above =>
    by_cases habove : above = ""
    · rw [habove]
      rfl
    · dsimp only
      rw [if_pos habove, if_pos habove]
      rfl

/-- Making the directory of a path alters no file, whether it succeeds or not. -/
theorem addsDirectories_of_makeParent {result : Except Fault Unit}
    (h : ((makeParent path).run files).run = (result, files')) :
    files.AddsDirectories files' := by
  have hnothing : ∀ result', (result', files) = (result, files') →
      files.AddsDirectories files' := by
    intro result' h
    obtain rfl : files = files' := (Prod.mk.inj h).2
    exact .refl files
  rw [makeParent] at h
  split at h
  · split at h
    · rw [run_perform] at h
      split at h
      · rename_i made hmade
        obtain rfl : made = files' := (Prod.mk.inj h).2
        exact Files.addsDirectories_of_makeDirectories hmade
      · exact hnothing _ h
    · exact hnothing _ h
  · exact hnothing _ h

/-- A save without changes does nothing, and any other one writes the table to a sibling, which
then takes the place of the file. -/
theorem save_eq_ok (h : ((registry.save path).run files).run = (.ok saved, files')) :
    registry.changed = false ∧ files' = files ∨
      registry.changed = true ∧ ∃ before written : Files, files.AddsDirectories before ∧
        before.write (Path.withExtension path "tmp") (tableText registry.table) = .ok written ∧
          written.rename (Path.withExtension path "tmp") path = .ok files' := by
  cases hchanged : registry.changed with
  | false =>
    rw [save_of_not_changed hchanged, Results.run_pure_eq_ok_iff] at h
    exact .inl ⟨rfl, h.2.symm⟩
  | true =>
    rw [save_of_changed hchanged] at h
    obtain ⟨u, before, hparent, h⟩ := Results.run_bind_eq_ok_iff.1 h
    obtain ⟨u, written, hwrite, h⟩ := Results.run_bind_eq_ok_iff.1 h
    obtain ⟨u, renamed, hrename, h⟩ := Results.run_bind_eq_ok_iff.1 h
    obtain rfl := (Results.run_pure_eq_ok_iff.1 h).2
    exact .inr ⟨rfl, before, written, addsDirectories_of_makeParent hparent,
      run_perform_eq_ok_iff.1 hwrite, run_perform_eq_ok_iff.1 hrename⟩

/-- A save that fails leaves the file of the registry as it was. -/
theorem keepsFile_of_save_eq_error {e : Fault}
    (h : ((registry.save path).run files).run = (.error e, files')) :
    Files.KeepsFile path files files' := by
  cases hchanged : registry.changed with
  | false =>
    rw [save_of_not_changed hchanged] at h
    cases h
  | true =>
    rw [save_of_changed hchanged] at h
    obtain h | ⟨u, before, hparent, h⟩ := Results.run_bind_eq_error_iff.1 h
    · exact (addsDirectories_of_makeParent h).keepsFile path
    have hadds := addsDirectories_of_makeParent hparent
    obtain h | ⟨u, written, hwrite, h⟩ := Results.run_bind_eq_error_iff.1 h
    · obtain ⟨rfl, -⟩ := run_perform_eq_error h
      exact hadds.keepsFile path
    obtain h | ⟨u, renamed, -, h⟩ := Results.run_bind_eq_error_iff.1 h
    · obtain ⟨rfl, reason, hrename⟩ := run_perform_eq_error h
      exact Files.keepsFile_of_rename_eq_error hadds (run_perform_eq_ok_iff.1 hwrite) hrename
    · cases h

/-- After a change, the text of the table is what is read from the file. -/
theorem read_of_save (h : ((registry.save path).run files).run = (.ok saved, files'))
    (hchanged : registry.changed = true) :
    files'.read path = .ok (tableText registry.table) := by
  obtain ⟨hfalse, -⟩ | ⟨-, before, written, -, hwrite, hrename⟩ := save_eq_ok h
  · rw [hchanged] at hfalse
    cases hfalse
  · exact Files.read_rename hrename (Files.read_write hwrite)

/-- What was saved after a change is stored. -/
theorem stored_of_save (h : ((registry.save path).run files).run = (.ok saved, files'))
    (hchanged : registry.changed = true) (hread : ReadsBack registry.table) :
    stored path files' = .ok registry.table :=
  stored_of_read (read_of_save h hchanged) hread

/-- A save after a change happens to the file of the registry and its sibling, and to no other
files. -/
theorem changesOnly_of_save (h : ((registry.save path).run files).run = (.ok saved, files'))
    (hchanged : registry.changed = true) :
    ∃ sibling target, files'.locateNew (Path.withExtension path "tmp") = .ok sibling ∧
      files'.locateNew path = .ok target ∧ sibling ≠ [] ∧ target ≠ [] ∧
      Files.ChangesOnly [sibling.key, target.key] files files' := by
  obtain ⟨hfalse, -⟩ | ⟨-, before, written, hadds, hwrite, hrename⟩ := save_eq_ok h
  · rw [hchanged] at hfalse
    cases hfalse
  obtain ⟨old, target, hold, hat, htarget, hfree, rfl⟩ :=
    Files.exists_of_rename hrename (Files.read_write hwrite)
  obtain ⟨sibling, hsibling, hsiblingFree, rfl⟩ := Files.write_eq_ok_iff.1 hwrite
  have hsiblingNil := Files.ne_nil_of_at?_ne_directory hsiblingFree
  -- the sibling is found where it was written
  obtain rfl : sibling = old := by
    have hfound : (before.setAt sibling (.text (tableText registry.table))).locate
        (Path.withExtension path "tmp") = .ok sibling :=
      Files.locate_of_locateNew hsibling hsiblingFree rfl
        (fun q hq => Files.at?_setAt_of_directory _ hsiblingFree hq)
        (by rw [Files.at?_setAt _ _ hsiblingNil]; rfl)
    exact Except.ok.inj (hfound.symm.trans hold)
  have holdFree : (before.setAt sibling (.text (tableText registry.table))).at? sibling ≠
      some .directory := by
    rw [hat]
    simp
  have hwritten : Files.ChangesOnly [sibling.key, target.key] before
      (before.setAt sibling (.text (tableText registry.table))) :=
    Files.changesOnly_setAt _ hsiblingFree (by simp)
  have herased : Files.ChangesOnly [sibling.key, target.key]
      (before.setAt sibling (.text (tableText registry.table))) _ :=
    Files.changesOnly_eraseAt holdFree (by simp)
  have hrenamed : Files.ChangesOnly [sibling.key, target.key] _ _ :=
    Files.changesOnly_setAt (.text (tableText registry.table))
      (Files.at?_eraseAt_ne_directory sibling hfree) (by simp)
  have hmoved := herased.trans hrenamed
  have hall := hwritten.trans hmoved
  refine ⟨sibling, target, ?_, ?_, hsiblingNil, Files.ne_nil_of_at?_ne_directory hfree,
    (hadds.changesOnly _).trans hall⟩
  · exact Files.locateNew_congr hsibling hsiblingFree hall.home_eq hall.directory
  · exact Files.locateNew_congr htarget hfree hmoved.home_eq hmoved.directory

end Registry

end SignalSchema
