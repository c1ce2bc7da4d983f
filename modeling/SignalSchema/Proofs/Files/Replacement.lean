import Mathlib
import SignalSchema.Files.Basic
import SignalSchema.Proofs.Results

/-!
# Replacing a file

A file that was written, or renamed, is found under its path afterwards and holds what was put
there. Following a path only asks for directories on the way and for the last place to exist, so
a place that was free, or held a file, before a change is found after it as long as no directory
got lost (`locate_of_locateNew`).
-/

namespace SignalSchema.Files

variable {files files' : Files} {start place place' old new : Place} {path source : String}
  {ps qs : List String} {content : String} {entry : FileEntry}

/-! ### Following a path in other files -/

/-- Below a place that is not a directory, nothing is found. -/
theorem at?_of_follow_cons {p : String} (h : files.follow start (p :: ps) = .ok place) :
    files.at? start = some .directory := by
  rw [follow] at h
  cases hat : files.at? start with
  | none => simp [hat] at h
  | some entry => cases entry with
    | directory => rfl
    | text _ => simp [hat] at h
    | binary => simp [hat] at h

/-- A path is followed piece by piece. -/
theorem follow_append (files : Files) (start : Place) (ps qs : List String) :
    files.follow start (ps ++ qs) =
      (files.follow start ps) >>= fun place => files.follow place qs := by
  induction ps generalizing start with
  | nil => rfl
  | cons p rest ih =>
    rw [List.cons_append, follow, follow]
    cases files.at? start with
    | none => rfl
    | some entry => cases entry with
      | text _ => rfl
      | binary => rfl
      | directory =>
        dsimp only
        split
        · exact ih start
        split
        · split
          · rfl
          · exact ih _
        split
        · exact ih _
        · rfl

/-- A path leads to the same place where no directory is missing and the place still exists. -/
theorem follow_congr (hdir : ∀ q, files.at? q = some .directory → files'.at? q = some .directory)
    (hplace : (files'.at? place).isSome = true) (h : files.follow start ps = .ok place) :
    files'.follow start ps = .ok place := by
  induction ps generalizing start with
  | nil => exact h
  | cons p rest ih =>
    have hstart := at?_of_follow_cons h
    rw [follow, hstart] at h
    rw [follow, hdir start hstart]
    dsimp only at h ⊢
    split at h
    · rw [if_pos ‹_›]
      exact ih h
    rw [if_neg ‹_›]
    split at h
    · rw [if_pos ‹_›]
      split at h
      · cases h
      · rw [if_neg ‹_›]
        exact ih h
    rw [if_neg ‹_›]
    split at h
    · -- the next place is the last one, or the path goes on through it as a directory
      have hnext : (files'.at? (start ++ [p])).isSome = true := by
        cases rest with
        | nil =>
          rw [follow, Except.ok.injEq] at h
          rwa [h]
        | cons q rest => rw [hdir _ (at?_of_follow_cons h)]; rfl
      rw [if_pos hnext]
      exact ih h
    · cases h

/-- The pieces of a path depend on the home directory only. -/
theorem pieces?_congr (hhome : files'.home = files.home) (path : String) :
    files'.pieces? path = files.pieces? path := by
  rw [pieces?, pieces?, hhome]

/-- A path is located by following its pieces. The empty path names nothing. -/
theorem locate_eq_ok_iff : files.locate path = .ok place ↔
    path ≠ "" ∧ ∃ ps, files.pieces? path = some ps ∧ files.follow [] ps = .ok place := by
  rw [locate]
  split
  · simp [*]
  · cases files.pieces? path with
    | none => simp
    | some ps => simp [*]

/-- A path leads to a place as before when the directories and the place are still there. -/
theorem locate_congr (h : files.locate path = .ok place) (hhome : files'.home = files.home)
    (hdir : ∀ q, files.at? q = some .directory → files'.at? q = some .directory)
    (hplace : (files'.at? place).isSome = true) : files'.locate path = .ok place := by
  obtain ⟨hpath, ps, hpieces, hfollow⟩ := locate_eq_ok_iff.1 h
  exact locate_eq_ok_iff.2
    ⟨hpath, ps, (pieces?_congr hhome path).trans hpieces, follow_congr hdir hplace hfollow⟩

/-- The pieces of a path below the home directory are pieces of the path. -/
theorem mem_pieces_of_pieces? {p : String} (h : files.pieces? path = some ps) (hp : p ∈ ps) :
    p ∈ Path.pieces path := by
  rw [pieces?] at h
  split at h
  · exact List.mem_of_mem_drop (Option.some.inj h ▸ hp)
  · split at h
    · cases h
    · exact Option.some.inj h ▸ hp

/-- A path with a piece that is not empty is not empty. -/
theorem ne_empty_of_pieces? {p : String} (h : files.pieces? path = some ps) (hp : p ∈ ps)
    (hne : p ≠ "") : path ≠ "" := by
  rintro rfl
  have hempty : Path.pieces "" = [""] := by cbv
  have heq := mem_pieces_of_pieces? h hp
  rw [hempty, List.mem_singleton] at heq
  exact hne heq

/-- A name in a directory leads to what has this name. -/
theorem follow_name {name : String} (hat : files.at? start = some .directory)
    (hname : name ≠ "" ∧ name ≠ "." ∧ name ≠ "..") : files.follow start [name] =
      if (files.at? (start ++ [name])).isSome then .ok (start ++ [name])
      else .error .notFound := by
  rw [follow, hat]
  dsimp only
  rw [if_neg (by simp [hname]), if_neg hname.2.2, follow]

/-- A path for a new file that ends in a name leads to this name in a directory. Any other path
has to lead somewhere already. -/
theorem locateNew_eq_ok_iff : files.locateNew path = .ok place ↔
    files.pieces? path = some [] ∧ place = [] ∨
    ∃ rest p, files.pieces? path = some (rest ++ [p]) ∧
      ((p = "" ∨ p = "." ∨ p = "..") ∧ files.locate path = .ok place ∨
      (p ≠ "" ∧ p ≠ "." ∧ p ≠ "..") ∧ ∃ directory, files.follow [] rest = .ok directory ∧
        files.at? directory = some .directory ∧ place = directory ++ [p]) := by
  rw [locateNew]
  cases hpieces : files.pieces? path with
  | none => simp
  | some all =>
    induction all using List.reverseRecOn with
    | nil =>
      constructor
      · exact fun h => .inl ⟨rfl, (Except.ok.inj h).symm⟩
      · rintro (⟨-, rfl⟩ | ⟨_, _, hall, -⟩)
        · rfl
        · simp at hall
    | append_singleton rest p =>
      rw [Option.map_some, List.reverse_concat]
      dsimp only
      rw [List.reverse_reverse]
      constructor
      · intro h
        refine .inr ⟨rest, p, rfl, ?_⟩
        split at h
        next hstep => exact .inl ⟨by simpa [or_assoc] using hstep, h⟩
        next hname =>
          obtain ⟨directory, hfollow, h⟩ := Results.bind_eq_ok_iff.1 h
          split at h
          next hat =>
            exact .inr ⟨by simpa [and_assoc] using hname, directory, hfollow, hat,
              (Except.ok.inj h).symm⟩
          next => cases h
          next => cases h
      · rintro (⟨hall, -⟩ | ⟨rest', p', hall, h⟩)
        · simp at hall
        obtain ⟨rfl, rfl⟩ : rest = rest' ∧ p = p' := by simpa using hall
        rcases h with ⟨hstep, h⟩ | ⟨hname, directory, hfollow, hat, rfl⟩
        · rwa [if_pos (by simpa [or_assoc] using hstep)]
        · rw [if_neg (by simp [hname])]
          refine Results.bind_eq_ok_iff.2 ⟨directory, hfollow, ?_⟩
          rw [hat]

/-- A place that a path names for a new file is found under the path when it was filled. -/
theorem locate_of_locateNew (h : files.locateNew path = .ok place)
    (hfree : files.at? place ≠ some .directory) (hhome : files'.home = files.home)
    (hdir : ∀ q, files.at? q = some .directory → files'.at? q = some .directory)
    (hplace : (files'.at? place).isSome = true) : files'.locate path = .ok place := by
  obtain ⟨-, rfl⟩ | ⟨rest, p, hpieces, ⟨-, hlocate⟩ | ⟨hname, directory, hfollow, hat, rfl⟩⟩ :=
    locateNew_eq_ok_iff.1 h
  · exact absurd rfl hfree
  · -- the last piece names a step, so that the place had to be there before
    exact locate_congr hlocate hhome hdir hplace
  · have hpath : path ≠ "" := ne_empty_of_pieces? hpieces (by simp) hname.1
    refine locate_eq_ok_iff.2 ⟨hpath, _, (pieces?_congr hhome path).trans hpieces, ?_⟩
    rw [follow_append, follow_congr hdir (hdir _ hat ▸ rfl) hfollow]
    exact (follow_name (hdir _ hat) hname).trans (if_pos hplace)

/-! ### Names in the home directory -/

section Names

variable {name : String} (hpieces : files.pieces? path = some [name])
  (hname : name ≠ "" ∧ name ≠ "." ∧ name ≠ "..")

include hpieces hname

/-- A new file is put into the home directory under its name. -/
theorem locateNew_name : files.locateNew path = .ok [name] :=
  locateNew_eq_ok_iff.2 (.inr ⟨[], name, hpieces, .inr ⟨hname, [], rfl, rfl, rfl⟩⟩)

/-- What is in the home directory is located under a path that leads to its name. -/
theorem locate_name (hat : (files.at? [name]).isSome = true) :
    files.locate path = .ok [name] := by
  have hpath : path ≠ "" := ne_empty_of_pieces? hpieces List.mem_cons_self hname.1
  exact locate_eq_ok_iff.2 ⟨hpath, _, hpieces, (follow_name rfl hname).trans (if_pos hat)⟩

/-- A name that is missing in the home directory leads nowhere. -/
theorem locate_name_of_none (hat : files.at? [name] = none) :
    files.locate path = .error .notFound := by
  have hmissing : ¬ (files.at? [name]).isSome = true := by simp [hat]
  rw [locate, if_neg (ne_empty_of_pieces? hpieces List.mem_cons_self hname.1), hpieces]
  exact (follow_name rfl hname).trans (if_neg hmissing)

end Names

/-! ### Putting and removing entries -/

/-- A place other than the home directory is looked up under its name. -/
theorem at?_of_ne_nil (files : Files) (h : place ≠ []) :
    files.at? place = files.entries.get? place.key := by
  rw [at?, if_neg (by simpa using h)]

/-- A place that is no directory is not the home directory. -/
theorem ne_nil_of_at?_ne_directory (h : files.at? place ≠ some .directory) : place ≠ [] := by
  rintro rfl
  exact h rfl

/-- An entry is found at the place where it was put. -/
theorem at?_setAt (files : Files) (entry : FileEntry) (hplace : place ≠ []) :
    (files.setAt place entry).at? place = some entry := by
  rw [at?_of_ne_nil _ hplace, setAt, Table.get?_insert, if_pos rfl]

/-- Directories stay where they are when nothing but the entry of another kind of place is
changed. -/
theorem at?_of_directory (hold : files.at? old ≠ some .directory)
    (hentries : ∀ key, key ≠ old.key → files'.entries.get? key = files.entries.get? key)
    (hplace : files.at? place = some .directory) : files'.at? place = some .directory := by
  by_cases hnil : place = []
  · rw [hnil]
    rfl
  rw [at?_of_ne_nil _ hnil] at hplace ⊢
  rw [at?_of_ne_nil _ (ne_nil_of_at?_ne_directory hold)] at hold
  have hkey : place.key ≠ old.key := fun heq => hold (heq ▸ hplace)
  rw [hentries _ hkey, hplace]

/-- Putting an entry at a place that is no directory leaves the directories alone. -/
theorem at?_setAt_of_directory (entry : FileEntry) (hold : files.at? old ≠ some .directory)
    (hplace : files.at? place = some .directory) :
    (files.setAt old entry).at? place = some .directory := by
  refine at?_of_directory hold (fun key hkey => ?_) hplace
  rw [setAt, Table.get?_insert, if_neg hkey]

/-- Removing an entry that is no directory leaves the directories alone. -/
theorem at?_eraseAt_of_directory (hold : files.at? old ≠ some .directory)
    (hplace : files.at? place = some .directory) :
    (files.eraseAt old).at? place = some .directory := by
  refine at?_of_directory hold (fun key hkey => ?_) hplace
  rw [eraseAt, Table.get?_erase, if_neg hkey]

/-- Removing an entry makes no new one. -/
theorem at?_eraseAt_ne_directory (old : Place) (hplace : files.at? place ≠ some .directory) :
    (files.eraseAt old).at? place ≠ some .directory := by
  have hnil := ne_nil_of_at?_ne_directory hplace
  rw [at?_of_ne_nil _ hnil] at hplace ⊢
  rw [eraseAt, Table.get?_erase]
  split
  · simp
  · exact hplace

/-! ### Writing and renaming -/

/-- A text is read where its path leads to it. -/
theorem read_eq_ok_iff :
    files.read path = .ok content ↔
      ∃ place, files.locate path = .ok place ∧ files.at? place = some (.text content) := by
  rw [read, Results.bind_eq_ok_iff]
  refine exists_congr fun place => and_congr_right fun _ => ?_
  rw [readAt]
  cases files.at? place with
  | none => simp
  | some entry => cases entry <;> simp

/-- What can be read exists. -/
theorem exists?_of_read (h : files.read path = .ok content) : files.exists? path = true := by
  obtain ⟨place, hplace, -⟩ := read_eq_ok_iff.1 h
  rw [exists?, hplace]

/-- A written file is put at the place that its path names, where no directory is. -/
theorem write_eq_ok_iff : files.write path content = .ok files' ↔
    ∃ place, files.locateNew path = .ok place ∧ files.at? place ≠ some .directory ∧
      files' = files.setAt place (.text content) := by
  rw [write, Results.bind_eq_ok_iff]
  refine exists_congr fun place => and_congr_right fun _ => ?_
  split
  · rename_i hat
    simp [hat]
  · rename_i hat
    rw [Except.ok.injEq, eq_comm]
    exact ⟨fun h => ⟨hat, h⟩, And.right⟩

/-- A written text is read back. -/
theorem read_write (h : files.write path content = .ok files') :
    files'.read path = .ok content := by
  obtain ⟨place, hnew, hfree, rfl⟩ := write_eq_ok_iff.1 h
  have hat := at?_setAt files (.text content) (ne_nil_of_at?_ne_directory hfree)
  refine read_eq_ok_iff.2 ⟨place, ?_, hat⟩
  refine locate_of_locateNew hnew hfree rfl (fun q hq => ?_) (by rw [hat]; rfl)
  exact at?_setAt_of_directory _ hfree hq

/-- A text can be renamed to any place that is no directory. -/
theorem rename_eq_ok {new : Place} (hold : files.locate source = .ok old)
    (hat : files.at? old = some (.text content)) (hnew : files.locateNew path = .ok new)
    (hfree : files.at? new ≠ some .directory) :
    files.rename source path = .ok ((files.eraseAt old).setAt new (.text content)) := by
  rw [rename]
  refine Results.bind_eq_ok_iff.2 ⟨old, hold, Results.bind_eq_ok_iff.2 ⟨new, hnew, ?_⟩⟩
  rw [hat]
  split
  · cases ‹some _ = some _›
  · exact absurd ‹_› hfree
  · cases ‹some _ = some _›
    rfl
  · cases ‹some _ = none›

/-- A text that was renamed is put at the place that the new path names, where no directory is. -/
theorem exists_of_rename (h : files.rename source path = .ok files')
    (hsource : files.read source = .ok content) :
    ∃ old new, files.locate source = .ok old ∧ files.at? old = some (.text content) ∧
      files.locateNew path = .ok new ∧ files.at? new ≠ some .directory ∧
      files' = (files.eraseAt old).setAt new (.text content) := by
  obtain ⟨old, hlocate, hold⟩ := read_eq_ok_iff.1 hsource
  have hrename := h
  rw [rename] at h
  obtain ⟨old', hlocate', h⟩ := Results.bind_eq_ok_iff.1 h
  obtain rfl : old = old' := Except.ok.inj (hlocate.symm.trans hlocate')
  obtain ⟨new, hnew, h⟩ := Results.bind_eq_ok_iff.1 h
  rw [hold] at h
  have hfree : files.at? new ≠ some .directory := by
    intro hat
    have hne : old ≠ new := by
      rintro rfl
      rw [hold] at hat
      cases hat
    simp [hat, hne] at h
  rw [rename_eq_ok hlocate hold hnew hfree] at hrename
  exact ⟨old, new, hlocate, hold, hnew, hfree, (Except.ok.inj hrename).symm⟩

/-- A text is read under the new path of its file. -/
theorem read_rename (h : files.rename source path = .ok files')
    (hsource : files.read source = .ok content) : files'.read path = .ok content := by
  obtain ⟨old, new, hlocate, hold, hnew, hfree, rfl⟩ := exists_of_rename h hsource
  have hfree' := at?_eraseAt_ne_directory old hfree
  have hat := at?_setAt (files.eraseAt old) (.text content)
    (ne_nil_of_at?_ne_directory hfree)
  have holdfile : files.at? old ≠ some .directory := by
    rw [hold]
    simp
  refine read_eq_ok_iff.2 ⟨new, ?_, hat⟩
  refine locate_of_locateNew hnew hfree rfl (fun q hq => ?_) (by rw [hat]; rfl)
  exact at?_setAt_of_directory _ hfree' (at?_eraseAt_of_directory holdfile hq)

end SignalSchema.Files
