import SignalSchema.Proofs.Files.Replacement
import SignalSchema.Proofs.Text

/-!
# Full paths

A place that a path names is named by its full path as well (`locate_fullPath`). Following a path
only reaches places whose names are single steps and that have directories on the way to them
(`Reached`), and the full path of such a place is followed along the same names.
-/

namespace SignalSchema

namespace Path

variable {path p : String}

/-! ### Pieces -/

/-- The pieces of a path are its characters between the slashes. -/
theorem pieces_eq (path : String) :
    pieces path = (path.toList.splitOn '/').map String.ofList :=
  Text.splitOn_eq path '/'

/-- There are no slashes in a piece. -/
theorem slash_notMem_of_mem_pieces (h : p ∈ pieces path) : '/' ∉ p.toList := by
  rw [pieces_eq] at h
  obtain ⟨part, hpart, rfl⟩ := List.mem_map.1 h
  rw [String.toList_ofList]
  exact Text.notMem_of_mem_splitOn hpart

/-- The pieces of two paths with a slash between them are the pieces of both. -/
theorem pieces_append_slash (first rest : String) :
    pieces (first ++ "/" ++ rest) = pieces first ++ pieces rest := by
  have hchars : (first ++ "/" ++ rest).toList = first.toList ++ '/' :: rest.toList := by
    simp
  rw [pieces_eq, pieces_eq, pieces_eq, hchars, List.splitOn_append_cons_self,
    List.map_append]

/-- Names without slashes are the pieces of the path that they make. -/
theorem pieces_intercalate {names : List String} (hne : names ≠ [])
    (hnames : ∀ name ∈ names, '/' ∉ name.toList) : pieces ("/".intercalate names) = names := by
  have hslash : "/".toList = ['/'] := rfl
  have hchars : ∀ cs ∈ names.map String.toList, '/' ∉ cs := by
    intro cs hcs
    obtain ⟨name, hname, rfl⟩ := List.mem_map.1 hcs
    exact hnames name hname
  rw [pieces_eq, String.toList_intercalate, hslash,
    List.splitOn_intercalate '/' hchars (by simpa using hne), List.map_map]
  simp

end Path

namespace Files

variable {files files' : Files} {start place other : Place} {path : String} {ps : List String}

/-! ### Reached places -/

/-- The names of the place are single steps, and there are directories on the way to it. -/
structure Reached (files : Files) (place : Place) : Prop where
  names : ∀ name ∈ place, (name ≠ "" ∧ name ≠ "." ∧ name ≠ "..") ∧ '/' ∉ name.toList
  directory : ∀ above, above <+: place → above.length < place.length →
    files.at? above = some .directory

namespace Reached

/-- The home directory is reached. -/
theorem nil (files : Files) : files.Reached [] where
  names := by simp
  directory above _ hlength := absurd hlength (Nat.not_lt_zero _)

/-- What lies above a reached place is reached. -/
theorem dropLast (h : files.Reached place) : files.Reached place.dropLast where
  names name hname := h.names name (List.mem_of_mem_dropLast hname)
  directory above habove hlength := by
    rw [List.length_dropLast] at hlength
    exact h.directory above (habove.trans (List.dropLast_prefix place)) (by omega)

/-- What lies above a reached place is a directory. -/
theorem at?_dropLast (h : files.Reached place) (hne : place ≠ []) :
    files.at? place.dropLast = some .directory := by
  have hlength := List.length_pos_iff.2 hne
  refine h.directory _ (List.dropLast_prefix place) ?_
  rw [List.length_dropLast]
  omega

/-- One step further from a directory, a place is reached. -/
theorem concat {p : String} (h : files.Reached place) (hat : files.at? place = some .directory)
    (hp : (p ≠ "" ∧ p ≠ "." ∧ p ≠ "..") ∧ '/' ∉ p.toList) : files.Reached (place ++ [p]) where
  names name hname := by
    rcases List.mem_append.1 hname with hname | hname
    · exact h.names name hname
    · rwa [List.mem_singleton.1 hname]
  directory above habove hlength := by
    rcases List.prefix_concat_iff.1 habove with rfl | habove
    · exact absurd hlength (Nat.lt_irrefl _)
    · rcases Nat.lt_or_eq_of_le habove.length_le with hlt | heq
      · exact h.directory above habove hlt
      · rwa [habove.eq_of_length heq]

end Reached

/-- Following pieces without slashes from a reached place leads to reached places. -/
theorem reached_of_follow (hstart : files.Reached start) (hps : ∀ p ∈ ps, '/' ∉ p.toList)
    (h : files.follow start ps = .ok place) : files.Reached place := by
  induction ps generalizing start with
  | nil => exact Except.ok.inj h ▸ hstart
  | cons p rest ih =>
    have hat := at?_of_follow_cons h
    have hrest : ∀ q ∈ rest, '/' ∉ q.toList := fun q hq => hps q (List.mem_cons_of_mem _ hq)
    rw [follow, hat] at h
    dsimp only at h
    split at h
    · exact ih hstart hrest h
    rename_i hstay
    split at h
    · split at h
      · cases h
      · exact ih hstart.dropLast hrest h
    rename_i hup
    split at h
    · simp only [Bool.or_eq_true, decide_eq_true_eq, not_or] at hstay
      exact ih (hstart.concat hat ⟨⟨hstay.1, hstay.2, hup⟩, hps p List.mem_cons_self⟩) hrest h
    · cases h

/-- A reached place is found along its names. -/
theorem Reached.follow_eq (h : files.Reached place) (hplace : (files.at? place).isSome = true) :
    files.follow [] place = .ok place := by
  induction place using List.reverseRecOn with
  | nil => rfl
  | append_singleton above name ih =>
    have hat : files.at? above = some .directory :=
      h.directory above (List.prefix_append _ _) (by simp)
    have habove : files.Reached above := by
      have hdrop := h.dropLast
      rwa [List.dropLast_concat] at hdrop
    have hname := (h.names name (by simp)).1
    rw [follow_append, ih habove (by rw [hat]; rfl)]
    exact (follow_name hat hname).trans (if_pos hplace)

/-! ### Full paths -/

/-- The pieces of a full path, as seen from the home directory, are the names of the place. -/
theorem pieces?_fullPath (h : files.Reached place) :
    files.pieces? (files.fullPath place) = some place := by
  have hpieces : Path.pieces (files.fullPath place) = Path.pieces files.home ++ place := by
    cases place with
    | nil => simp [fullPath]
    | cons name rest =>
      rw [fullPath, String.intercalate_cons_cons, Path.pieces_append_slash,
        Path.pieces_intercalate (List.cons_ne_nil _ _) fun n hn => (h.names n hn).2]
  rw [pieces?, hpieces]
  simp

/-- Following the pieces of a path leads to reached places. -/
theorem reached_of_pieces? {qs : List String} (hpieces : files.pieces? path = some ps)
    (hqs : qs ⊆ ps) (h : files.follow [] qs = .ok place) : files.Reached place :=
  reached_of_follow (.nil files)
    (fun _ hp => Path.slash_notMem_of_mem_pieces (mem_pieces_of_pieces? hpieces (hqs hp))) h

/-- A path leads to a reached place. -/
theorem reached_of_locate (h : files.locate path = .ok place) : files.Reached place := by
  obtain ⟨-, ps, hpieces, hfollow⟩ := locate_eq_ok_iff.1 h
  exact reached_of_pieces? hpieces (List.Subset.refl ps) hfollow

/-- A place that a path names is named by its full path as well. Only the home directory may have
an empty full path, which names nothing. -/
theorem locate_fullPath (h : files.locate path = .ok place) (hne : files.fullPath place ≠ "") :
    files.locate (files.fullPath place) = .ok place := by
  have hreached := reached_of_locate h
  exact locate_eq_ok_iff.2 ⟨hne, place, pieces?_fullPath hreached,
    hreached.follow_eq (isSome_at?_of_locate h)⟩

/-- Places of one name have one full path. -/
theorem fullPath_eq_of_key_eq (hplace : place ≠ []) (hother : other ≠ [])
    (h : place.key = other.key) : files.fullPath place = files.fullPath other := by
  have hfull : ∀ q : Place, q ≠ [] → files.fullPath q = files.home ++ "/" ++ q.key := by
    intro q hq
    obtain ⟨name, rest, rfl⟩ := List.exists_cons_of_ne_nil hq
    exact String.intercalate_cons_cons
  rw [hfull place hplace, hfull other hother, h]

/-! ### Places of new files -/

/-- A piece that is no name leads to a directory. -/
theorem at?_of_follow_step {p : String} (hstart : files.Reached start)
    (hp : p = "" ∨ p = "." ∨ p = "..") (h : files.follow start [p] = .ok place) :
    files.at? place = some .directory := by
  have hat := at?_of_follow_cons h
  rw [follow, hat] at h
  dsimp only at h
  split at h
  · rw [follow, Except.ok.injEq] at h
    rwa [← h]
  rename_i hstay
  simp only [Bool.or_eq_true, decide_eq_true_eq, not_or] at hstay
  obtain rfl : p = ".." := (hp.resolve_left hstay.1).resolve_left hstay.2
  rw [if_pos rfl] at h
  split at h
  · cases h
  · rename_i hne
    rw [follow, Except.ok.injEq] at h
    rw [← h]
    exact hstart.at?_dropLast (by simpa using hne)

/-- A path for a new file names the same place where no directory is missing. -/
theorem locateNew_congr (h : files.locateNew path = .ok place)
    (hfree : files.at? place ≠ some .directory) (hhome : files'.home = files.home)
    (hdir : ∀ q, files.at? q = some .directory → files'.at? q = some .directory) :
    files'.locateNew path = .ok place := by
  obtain ⟨-, rfl⟩ | ⟨rest, p, hpieces, ⟨hstep, hlocate⟩ | ⟨hname, directory, hfollow, hat, rfl⟩⟩ :=
    locateNew_eq_ok_iff.1 h
  · exact absurd rfl hfree
  · -- the last piece names no file, so that the path leads to a directory
    obtain ⟨-, _, hpieces', hfollow⟩ := locate_eq_ok_iff.1 hlocate
    obtain rfl := Option.some.inj (hpieces.symm.trans hpieces')
    rw [follow_append] at hfollow
    obtain ⟨middle, hmiddle, hlast⟩ := Results.bind_eq_ok_iff.1 hfollow
    have hreached := reached_of_pieces? hpieces (List.subset_append_left rest [p]) hmiddle
    exact absurd (at?_of_follow_step hreached hstep hlast) hfree
  · exact locateNew_eq_ok_iff.2 (.inr ⟨rest, p, (pieces?_congr hhome path).trans hpieces, .inr
      ⟨hname, directory, follow_congr hdir (hdir _ hat ▸ rfl) hfollow, hdir _ hat, rfl⟩⟩)

end Files

end SignalSchema
