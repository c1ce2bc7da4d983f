import SignalSchema.Proofs.Files.Replacement

/-!
# Files that stay

Making directories alters no file (`AddsDirectories`), and writing alters the file at one place
only. So the file under a path is safe when a file is written beside it and should then take its
place, but cannot: renaming only fails where the path names no file (`at?_of_rename_eq_error`).

A path may name a file that it did not name before, since a directory that was missing on the way
can be made. What is asked for is therefore that the path goes on naming the file that it named,
and that the file which it names in the end was there before with the same content
(`KeepsFile`).
-/

namespace SignalSchema.Files

variable {files files' middle : Files} {place old : Place} {path source : String}
  {content : String} {entry : FileEntry}

/-- What is at a place, unless it is a directory. -/
def fileAt? (files : Files) (place : Place) : Option FileEntry :=
  (files.at? place).filter (· ≠ .directory)

/-- There is a file exactly where there is something other than a directory. -/
theorem fileAt?_eq_some_iff :
    files.fileAt? place = some entry ↔ files.at? place = some entry ∧ entry ≠ .directory := by
  rw [fileAt?, Option.filter_eq_some_iff, decide_eq_true_eq]

/-- A directory is no file. -/
theorem fileAt?_of_directory (h : files.at? place = some .directory) :
    files.fileAt? place = none := by
  rw [fileAt?, h]
  rfl

/-- The same is found as a file where the same is found. -/
theorem fileAt?_congr (h : files'.at? place = files.at? place) :
    files'.fileAt? place = files.fileAt? place := by
  rw [fileAt?, fileAt?, h]

/-- Putting an entry somewhere changes nothing at places with another name. -/
theorem at?_setAt_of_key_ne (files : Files) (entry : FileEntry) (h : place.key ≠ old.key) :
    (files.setAt old entry).at? place = files.at? place := by
  by_cases hnil : place = []
  · rw [hnil]
    rfl
  rw [at?_of_ne_nil _ hnil, at?_of_ne_nil _ hnil, setAt, Table.get?_insert, if_neg h]

/-! ### Making directories -/

/-- All that was done to the files is that directories were made. -/
structure AddsDirectories (files files' : Files) : Prop where
  home_eq : files'.home = files.home
  directory : ∀ place, files.at? place = some .directory → files'.at? place = some .directory
  file : ∀ place, files'.fileAt? place = files.fileAt? place

namespace AddsDirectories

/-- Nothing needs to be done. -/
theorem refl (files : Files) : AddsDirectories files files :=
  ⟨rfl, fun _ h => h, fun _ => rfl⟩

/-- Directories can be made in two steps. -/
theorem trans (h : AddsDirectories files middle) (h' : AddsDirectories middle files') :
    AddsDirectories files files' where
  home_eq := h'.home_eq.trans h.home_eq
  directory place hplace := h'.directory place (h.directory place hplace)
  file place := (h'.file place).trans (h.file place)

end AddsDirectories

/-- Making a directory fills a free place. -/
theorem addsDirectories_of_makeDirectory (h : files.makeDirectory path = .ok files') :
    AddsDirectories files files' := by
  obtain ⟨new, -, h⟩ := Results.bind_eq_ok_iff.1 h
  cases hnew : files.at? new with
  | some entry => simp [hnew] at h
  | none =>
    rw [hnew] at h
    obtain rfl := Except.ok.inj h
    have hfree : files.at? new ≠ some .directory := by
      rw [hnew]
      simp
    refine ⟨rfl, fun place => at?_setAt_of_directory .directory hfree, fun place => ?_⟩
    by_cases hkey : place.key = new.key
    · -- the place was free before and is a directory now
      by_cases hnil : place = []
      · rw [hnil]
        rfl
      have hbefore : files.at? place = none := by
        rw [at?_of_ne_nil _ hnil, hkey, ← at?_of_ne_nil _ (ne_nil_of_at?_ne_directory hfree), hnew]
      have hafter : (files.setAt new .directory).at? place = some .directory := by
        rw [at?_of_ne_nil _ hnil, setAt, Table.get?_insert, if_pos hkey]
      rw [fileAt?_of_directory hafter, fileAt?, hbefore]
      rfl
    · exact fileAt?_congr (at?_setAt_of_key_ne files .directory hkey)

/-- Making a directory with those above it alters no file. -/
theorem addsDirectories_of_makeDirectories {depth : Nat}
    (h : files.makeDirectories path depth = .ok files') : AddsDirectories files files' := by
  induction depth generalizing path files' with
  | zero => cases h
  | succ depth ih =>
    rw [makeDirectories] at h
    split at h
    · obtain rfl := Except.ok.inj h
      exact .refl files
    split at h
    · rename_i made hmade
      obtain rfl := Except.ok.inj h
      exact addsDirectories_of_makeDirectory hmade
    · split at h
      · cases h
      · obtain ⟨above, habove, h⟩ := Results.bind_eq_ok_iff.1 h
        have hadds := ih habove
        split at h
        · rename_i made hmade
          obtain rfl := Except.ok.inj h
          exact hadds.trans (addsDirectories_of_makeDirectory hmade)
        · split at h
          · obtain rfl := Except.ok.inj h
            exact hadds
          · cases h
    · split at h
      · obtain rfl := Except.ok.inj h
        exact .refl files
      · cases h

/-! ### The file under a path -/

/-- The path still names the file that it named, and the file that it names has not changed. -/
structure KeepsFile (path : String) (files files' : Files) : Prop where
  located : ∀ place, files.locate path = .ok place → files.fileAt? place ≠ none →
    files'.locate path = .ok place
  file : ∀ place, files'.locate path = .ok place → files'.fileAt? place = files.fileAt? place

/-- Without a change, all files are kept. -/
theorem KeepsFile.refl (path : String) (files : Files) : KeepsFile path files files :=
  ⟨fun _ h _ => h, fun _ _ => rfl⟩

/-- A text can be read under a path as before when its file is kept. -/
theorem KeepsFile.read_eq (h : KeepsFile path files files')
    (hread : files.read path = .ok content) : files'.read path = .ok content := by
  obtain ⟨place, hlocate, hat⟩ := read_eq_ok_iff.1 hread
  have hfile : files.fileAt? place = some (.text content) :=
    fileAt?_eq_some_iff.2 ⟨hat, by simp⟩
  have hlocate' := h.located place hlocate (by rw [hfile]; simp)
  rw [← h.file place hlocate'] at hfile
  exact read_eq_ok_iff.2 ⟨place, hlocate', (fileAt?_eq_some_iff.1 hfile).1⟩

/-- Where directories were made, a path still names its file. -/
theorem AddsDirectories.keepsFile (h : AddsDirectories files files') (path : String) :
    KeepsFile path files files' where
  located place hlocate hfile := by
    obtain ⟨entry, hentry⟩ := Option.ne_none_iff_exists'.1 hfile
    have hat := (fileAt?_eq_some_iff.1 ((h.file place).trans hentry)).1
    exact locate_congr hlocate h.home_eq h.directory (by rw [hat]; rfl)
  file place _ := h.file place

/-! ### Writing a file that then cannot take another place -/

/-- The place that an existing path names is the one for a new file under this path. -/
theorem locateNew_of_locate (h : files.locate path = .ok place) :
    files.locateNew path = .ok place := by
  obtain ⟨-, all, hpieces, hfollow⟩ := locate_eq_ok_iff.1 h
  rw [locateNew_eq_ok_iff]
  rcases List.eq_nil_or_concat' all with rfl | ⟨rest, p, rfl⟩
  · exact .inl ⟨hpieces, (Except.ok.inj hfollow).symm⟩
  refine .inr ⟨rest, p, hpieces, ?_⟩
  by_cases hp : p = "" ∨ p = "." ∨ p = ".."
  · exact .inl ⟨hp, h⟩
  have hname : p ≠ "" ∧ p ≠ "." ∧ p ≠ ".." := by simpa using hp
  rw [follow_append] at hfollow
  obtain ⟨directory, hrest, hlast⟩ := Results.bind_eq_ok_iff.1 hfollow
  have hat := at?_of_follow_cons hlast
  rw [follow_name hat hname] at hlast
  split at hlast
  · exact .inr ⟨hname, directory, hrest, hat, (Except.ok.inj hlast).symm⟩
  · cases hlast

/-- Renaming a text to an existing path only fails if the path names a directory. -/
theorem at?_of_rename_eq_error {e : FileError} (h : files.rename source path = .error e)
    (hsource : files.read source = .ok content) (hplace : files.locate path = .ok place) :
    files.at? place = some .directory := by
  obtain ⟨old, hold, hat⟩ := read_eq_ok_iff.1 hsource
  by_contra hfree
  rw [rename_eq_ok hold hat (locateNew_of_locate hplace) hfree] at h
  cases h

/-- A file that was written elsewhere, and should have been renamed to the path but could not be,
leaves the file of the path as it was. -/
theorem keepsFile_of_rename_eq_error {e : FileError} (hadds : AddsDirectories files middle)
    (hwrite : middle.write source content = .ok files')
    (hrename : files'.rename source path = .error e) : KeepsFile path files files' := by
  have hsource := read_write hwrite
  obtain ⟨new, -, hfree, rfl⟩ := write_eq_ok_iff.1 hwrite
  constructor
  · intro place hlocate hfile
    have hmiddle := (hadds.keepsFile path).located place hlocate hfile
    refine locate_congr hmiddle rfl (fun q hq => at?_setAt_of_directory _ hfree hq) ?_
    by_cases hkey : place.key = new.key
    · have hnil : place ≠ [] := by
        rintro rfl
        exact hfile rfl
      rw [at?_of_ne_nil _ hnil, setAt, Table.get?_insert, if_pos hkey]
      rfl
    · rw [← hadds.file] at hfile
      obtain ⟨entry, hentry⟩ := Option.ne_none_iff_exists'.1 hfile
      rw [at?_setAt_of_key_ne _ _ hkey, (fileAt?_eq_some_iff.1 hentry).1]
      rfl
  · intro place hlocate
    have hdirectory := at?_of_rename_eq_error hrename hsource hlocate
    have hkey : place.key = new.key → place = [] := by
      intro hkey
      by_contra hnil
      rw [at?_of_ne_nil _ hnil, setAt, Table.get?_insert, if_pos hkey] at hdirectory
      cases hdirectory
    have hbefore : middle.at? place = some .directory := by
      by_cases hnil : place = []
      · rw [hnil]
        rfl
      · rw [← hdirectory, at?_setAt_of_key_ne _ _ fun h => hnil (hkey h)]
    rw [fileAt?_of_directory hdirectory, ← hadds.file, fileAt?_of_directory hbefore]

/-! ### Changes at some places -/

/-- Removing an entry somewhere changes nothing at places with another name. -/
theorem at?_eraseAt_of_key_ne (files : Files) (h : place.key ≠ old.key) :
    (files.eraseAt old).at? place = files.at? place := by
  by_cases hnil : place = []
  · rw [hnil]
    rfl
  rw [at?_of_ne_nil _ hnil, at?_of_ne_nil _ hnil, eraseAt, Table.get?_erase, if_neg h]

/-- All that was done to the files is that directories were made, and that something happened to
files at places with some names. -/
structure ChangesOnly (keys : List String) (files files' : Files) : Prop where
  home_eq : files'.home = files.home
  directory : ∀ place, files.at? place = some .directory → files'.at? place = some .directory
  file : ∀ place : Place, place.key ∉ keys → files'.fileAt? place = files.fileAt? place

/-- Making directories happens to no files. -/
theorem AddsDirectories.changesOnly (h : AddsDirectories files files') (keys : List String) :
    ChangesOnly keys files files' :=
  ⟨h.home_eq, h.directory, fun place _ => h.file place⟩

/-- Putting an entry somewhere else than in the place of a directory changes the files there. -/
theorem changesOnly_setAt {keys : List String} (entry : FileEntry)
    (hfree : files.at? old ≠ some .directory) (hkey : old.key ∈ keys) :
    ChangesOnly keys files (files.setAt old entry) where
  home_eq := rfl
  directory _ := at?_setAt_of_directory entry hfree
  file _ hplace := fileAt?_congr (at?_setAt_of_key_ne files entry fun heq => hplace (heq ▸ hkey))

/-- Removing what is no directory changes the files there. -/
theorem changesOnly_eraseAt {keys : List String} (hfree : files.at? old ≠ some .directory)
    (hkey : old.key ∈ keys) : ChangesOnly keys files (files.eraseAt old) where
  home_eq := rfl
  directory _ := at?_eraseAt_of_directory hfree
  file _ hplace := fileAt?_congr (at?_eraseAt_of_key_ne files fun heq => hplace (heq ▸ hkey))

namespace ChangesOnly

variable {keys : List String}

/-- Files can be changed in two steps. -/
theorem trans (h : ChangesOnly keys files middle) (h' : ChangesOnly keys middle files') :
    ChangesOnly keys files files' where
  home_eq := h'.home_eq.trans h.home_eq
  directory place hplace := h'.directory place (h.directory place hplace)
  file place hplace := (h'.file place hplace).trans (h.file place hplace)

/-- A text at a place with another name is still there. -/
theorem at?_eq (h : ChangesOnly keys files files') (hkey : place.key ∉ keys)
    (hat : files.at? place = some (.text content)) : files'.at? place = some (.text content) := by
  have hfile := (h.file place hkey).trans (fileAt?_eq_some_iff.2 ⟨hat, by simp⟩)
  exact (fileAt?_eq_some_iff.1 hfile).1

/-- A path that names a text at a place with another name still names it. -/
theorem locate_eq (h : ChangesOnly keys files files') (hkey : place.key ∉ keys)
    (hat : files.at? place = some (.text content)) (hlocate : files.locate path = .ok place) :
    files'.locate path = .ok place := by
  refine locate_congr hlocate h.home_eq h.directory ?_
  rw [h.at?_eq hkey hat]
  rfl

/-- A text at a place with another name is read as before. -/
theorem read_eq (h : ChangesOnly keys files files') (hkey : place.key ∉ keys)
    (hat : files.at? place = some (.text content)) (hlocate : files.locate path = .ok place) :
    files'.read path = .ok content :=
  read_eq_ok_iff.2 ⟨place, h.locate_eq hkey hat hlocate, h.at?_eq hkey hat⟩

/-- Places have the same full paths as before. -/
theorem fullPath_eq (h : ChangesOnly keys files files') (place : Place) :
    files'.fullPath place = files.fullPath place := by
  rw [fullPath, fullPath, h.home_eq]

end ChangesOnly

end SignalSchema.Files
