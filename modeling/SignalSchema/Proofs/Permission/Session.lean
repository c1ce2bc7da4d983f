import Mathlib
import SignalSchema.Proofs.Permission.Numbering
import SignalSchema.Proofs.Permission.Saving

/-!
# Sessions on a registry file

A session is a registry in memory beside the files. Permissions are registered and documents
gone through, and the registry is saved and created anew, in any order. The invariant is
`Session.Sound`: the registry continues the table in the file, and has no more than it as long
as it reports no change. Every operation keeps it and continues the table in the file
(`Session.Sound.step`), so a number that was saved once stays with its permission, a save that
does not write loses nothing, and creating a registry anew after a save goes on as if it had
been kept (`Session.stored_of_runs`).
-/

namespace SignalSchema

/-- A registry in memory beside the files. -/
structure Session where
  files : Files
  registry : Registry

namespace Session

open Registry (ReadsBack stored)

/-- What is done in a session. -/
inductive Operation where
  | register (permission : String)
  | update (document : SchemaDocument)
  | save
  /-- Loads the registry from its file; what was not saved is lost. -/
  | create

variable {path : String} {s s' t t' start : Session} {old new : Table Nat}

/-- The session after an operation; a failing file operation ends it. -/
def perform (path : String) (session : Session) : Operation → Except Fault Session
  | .register permission =>
    .ok { session with registry := session.registry.register permission }
  | .update document => .ok { session with registry := session.registry.update document }
  | .save =>
    match ((session.registry.save path).run session.files).run with
    | (.ok _, files) => .ok { session with files := files }
    | (.error e, _) => .error e
  | .create =>
    (Registry.load session.files path).map fun registry => { session with registry := registry }

/-- An operation that succeeds leads from one session to another, and a table that it writes
can be read back. -/
def Step (path : String) (operation : Operation) (s t : Session) : Prop :=
  s.perform path operation = .ok t ∧
    (operation = .save → s.registry.changed = true → ReadsBack s.registry.table)

/-- Only a save is asked for more than its success. -/
theorem Step.of_ne_save {operation : Operation} (h : s.perform path operation = .ok t)
    (hne : operation ≠ .save) : Step path operation s t :=
  ⟨h, fun hsave => absurd hsave hne⟩

/-- Operations that succeed one after the other lead from one session to another. -/
def Runs (path : String) : List Operation → Session → Session → Prop
  | [], s, t => s = t
  | operation :: rest, s, u => ∃ t, Step path operation s t ∧ Runs path rest t u

/-- A session starts with the registry in the file. -/
def Starts (path : String) (session : Session) : Prop :=
  Registry.load session.files path = .ok session.registry

/-- The registry continues the table in the file, and is no more than it unless it reports a
change. -/
structure Sound (path : String) (session : Session) (table : Table Nat) : Prop where
  /-- The table is the one in the file. -/
  stored_eq : stored path session.files = .ok table
  /-- The next number is the one that the table in memory asks for. -/
  consistent : session.registry.Consistent
  /-- The table in memory continues the one in the file. -/
  continues : table.Continues session.registry.table
  /-- Without a change, both are the same. -/
  unchanged : session.registry.changed = false → session.registry.table = table

/-- A session that starts is sound. -/
theorem Starts.sound (h : Starts path s) : Sound path s s.registry.table := by
  have heq := Registry.load_eq_ofTable h
  refine ⟨?_, ?_, Table.Continues.refl _, fun _ => rfl⟩
  · rw [stored, show Registry.load s.files path = .ok s.registry from h]
    rfl
  · rw [heq]
    exact Registry.consistent_ofTable _

namespace Sound

/-- Registering permissions leaves the file behind. -/
theorem registerAll (h : Sound path s old) (permissions : List String) :
    Sound path { s with registry := s.registry.registerAll permissions } old where
  stored_eq := h.stored_eq
  consistent := h.consistent.registerAll permissions
  continues := h.continues.trans (h.consistent.continues_registerAll permissions)
  unchanged := by
    intro hchanged
    have heq := Registry.registerAll_eq_of_not_changed hchanged
    dsimp only at hchanged ⊢
    rw [heq] at hchanged ⊢
    exact h.unchanged hchanged

/-- After a save, the table in memory is in the file. -/
theorem save (h : Sound path s old) (hst : Step path .save s t) :
    t.registry = s.registry ∧ Sound path t s.registry.table := by
  obtain ⟨hsave, hread⟩ := hst
  rw [perform] at hsave
  split at hsave
  · rename_i saved files' hrun
    obtain rfl := Except.ok.inj hsave
    refine ⟨rfl, ?_, h.consistent, Table.Continues.refl _, fun _ => rfl⟩
    cases hchanged : s.registry.changed with
    | true => exact Registry.stored_of_save hrun hchanged (hread rfl hchanged)
    | false =>
      obtain ⟨-, hfiles⟩ | ⟨htrue, -⟩ := Registry.save_eq_ok hrun
      · rw [h.unchanged hchanged]
        exact hfiles ▸ h.stored_eq
      · rw [hchanged] at htrue
        cases htrue
  · cases hsave

/-- A registry can be created anew at any time, from the table in the file. -/
theorem create (h : Sound path s old) :
    Step path .create s { s with registry := Registry.ofTable old } := by
  refine .of_ne_save ?_ (by simp)
  rw [perform, Registry.load_eq_ok_iff.2 h.stored_eq]
  rfl

/-- A registry made anew from the table in the file is sound. -/
theorem ofTable (h : Sound path s old) :
    Sound path { s with registry := Registry.ofTable old } old :=
  ⟨h.stored_eq, Registry.consistent_ofTable _, Table.Continues.refl _, fun _ => rfl⟩

/-- Every operation keeps two sessions sound that agree on the tables in memory and in the file,
lets them agree afterwards, and continues the table in the file. -/
theorem step_of_agree {operation : Operation} (hs : Sound path s old) (ht : Sound path t old)
    (htable : s.registry.table = t.registry.table) (hss : Step path operation s s')
    (htt : Step path operation t t') :
    ∃ new, old.Continues new ∧ Sound path s' new ∧ Sound path t' new ∧
      s'.registry.table = t'.registry.table := by
  have hnext : s.registry.next = t.registry.next := by
    rw [hs.consistent, ht.consistent, htable]
  have hcongr := Registry.table_registerAll_congr htable hnext
  cases operation with
  | register permission =>
    obtain rfl := Except.ok.inj hss.1
    obtain rfl := Except.ok.inj htt.1
    exact ⟨old, Table.Continues.refl _, hs.registerAll [permission],
      ht.registerAll [permission], hcongr [permission]⟩
  | update document =>
    obtain rfl := Except.ok.inj hss.1
    obtain rfl := Except.ok.inj htt.1
    exact ⟨old, Table.Continues.refl _, hs.registerAll document.declaredPermissions,
      ht.registerAll document.declaredPermissions, hcongr document.declaredPermissions⟩
  | save =>
    obtain ⟨hsr, hsound⟩ := hs.save hss
    obtain ⟨htr, htsound⟩ := ht.save htt
    refine ⟨s.registry.table, hs.continues, hsound, htable ▸ htsound, ?_⟩
    rw [hsr, htr, htable]
  | create =>
    obtain rfl := Except.ok.inj (hs.create.1.symm.trans hss.1)
    obtain rfl := Except.ok.inj (ht.create.1.symm.trans htt.1)
    exact ⟨old, Table.Continues.refl _, hs.ofTable, ht.ofTable, rfl⟩

/-- Every operation keeps a session sound and continues the table in the file. -/
theorem step {operation : Operation} (h : Sound path s old) (hst : Step path operation s t) :
    ∃ new, old.Continues new ∧ Sound path t new := by
  obtain ⟨new, hnew, hsound, -, -⟩ := h.step_of_agree h rfl hst hst
  exact ⟨new, hnew, hsound⟩

/-- Any number of operations keeps two sessions sound that agree on the tables in memory and in
the file, and lets them agree at the end. -/
theorem runs_of_agree {operations : List Operation} (hs : Sound path s old)
    (ht : Sound path t old) (htable : s.registry.table = t.registry.table)
    (hss : Runs path operations s s') (htt : Runs path operations t t') :
    ∃ new, old.Continues new ∧ Sound path s' new ∧ s'.registry.table = t'.registry.table := by
  induction operations generalizing s t old with
  | nil =>
    obtain rfl : s = s' := hss
    obtain rfl : t = t' := htt
    exact ⟨old, Table.Continues.refl _, hs, htable⟩
  | cons operation rest ih =>
    obtain ⟨s₁, hs₁, hss⟩ := hss
    obtain ⟨t₁, ht₁, htt⟩ := htt
    obtain ⟨middle, hmiddle, hsound, htsound, htable⟩ := hs.step_of_agree ht htable hs₁ ht₁
    obtain ⟨new, hnew, hsound, htable⟩ := ih hsound htsound htable hss htt
    exact ⟨new, hmiddle.trans hnew, hsound, htable⟩

/-- Any number of operations keeps a session sound and continues the table in the file. -/
theorem runs {operations : List Operation} (h : Sound path s old)
    (hst : Runs path operations s t) : ∃ new, old.Continues new ∧ Sound path t new := by
  obtain ⟨new, hnew, hsound, -⟩ := h.runs_of_agree h rfl hst hst
  exact ⟨new, hnew, hsound⟩

/-- A registry that is saved and created anew goes on as the one that was kept: the same
permissions get the same numbers, whatever else is done in between. -/
theorem reloaded_of_save (h : Sound path s old) (hst : Step path .save s t) :
    ∃ u, Step path .create t u ∧
      (∀ permissions, (u.registry.registerAll permissions).table =
        (s.registry.registerAll permissions).table) ∧
      ∀ later t' u', Runs path later t t' → Runs path later u u' →
        u'.registry.table = t'.registry.table := by
  obtain ⟨hregistry, hsound⟩ := h.save hst
  refine ⟨_, hsound.create, ?_, fun later t' u' ht hu => ?_⟩
  · exact Registry.table_registerAll_congr rfl h.consistent.symm
  · obtain ⟨-, -, -, htable⟩ :=
      hsound.ofTable.runs_of_agree hsound (hregistry ▸ rfl) hu ht
    exact htable

end Sound

/-- What a session does to the file of its registry, whatever its operations are. At any time the
table in the file is an initial segment of the one in memory, and is all of it when no change is
reported. Between any two times the table in the file only grows at its end: a number stays with
its permission and goes to no other one, and numbers stay distinct if they were at the start.
After a save, a registry that is created anew goes on as the one that was kept. -/
theorem stored_of_runs {before after : List Operation} (hstart : Starts path start)
    (hs : Runs path before start s) (ht : Runs path after s t) :
    ∃ first old new, stored path start.files = .ok first ∧ stored path s.files = .ok old ∧
      stored path t.files = .ok new ∧ new.entries <+: t.registry.table.entries ∧
      old.entries <+: new.entries ∧
      (∀ permission n, old.get? permission = some n → new.get? permission = some n ∧
        ∀ other, new.get? other = some n → old.get? other = some n) ∧
      (first.values.Nodup → new.values.Nodup ∧ t.registry.table.values.Nodup) ∧
      (t.registry.changed = false → t.registry.table = new) ∧
      ∀ saved, Step path .save t saved → ∃ reloaded, Step path .create saved reloaded ∧
        (∀ permissions, (reloaded.registry.registerAll permissions).table =
          (t.registry.registerAll permissions).table) ∧
        ∀ later saved' reloaded', Runs path later saved saved' →
          Runs path later reloaded reloaded' →
            reloaded'.registry.table = saved'.registry.table := by
  have hfirst := hstart.sound
  obtain ⟨old, hold, hsound⟩ := hfirst.runs hs
  obtain ⟨new, hnew, htsound⟩ := hsound.runs ht
  refine ⟨_, old, new, hfirst.stored_eq, hsound.stored_eq, htsound.stored_eq,
    htsound.continues.isPrefix, hnew.isPrefix, fun permission n hget => ?_, fun hnodup => ?_,
    htsound.unchanged, fun saved hsaved => htsound.reloaded_of_save hsaved⟩
  · have hn : n ∈ old.values := List.mem_map.2 ⟨_, Table.get?_eq_some_iff.1 hget, rfl⟩
    exact ⟨hnew.get?_eq_some hget, fun other => hnew.get?_eq_some_of_mem hn⟩
  · have hall := (hold.trans hnew).nodup_values hnodup
    exact ⟨hall, htsound.continues.nodup_values hall⟩

/-- A registry with one permission. -/
def oneRegistry : Registry :=
  Registry.empty.register "A"

/-- Files below `/h` where the registry of one permission was saved. -/
def oneFiles : Files :=
  (Files.empty "/h").setAt ["p"] (.text (Registry.tableText oneRegistry.table))

/-- A name without slashes is a name in the home directory. -/
theorem pieces?_name {files : Files} {name : String} (h : files.home = "/h")
    (hpieces : Path.pieces name = [name]) (habsolute : Path.isAbsolute name = false) :
    files.pieces? name = some [name] := by
  have hhome : Path.pieces files.home = ["", "h"] := by
    rw [h]
    cbv
  rw [Files.pieces?, hhome, hpieces, habsolute]
  simp [List.isPrefixOf]

/-- The path `p` is the file of this name in the home directory, and so is its sibling. -/
theorem pieces?_p {files : Files} (h : files.home = "/h") :
    files.pieces? "p" = some ["p"] ∧ files.pieces? "p.tmp" = some ["p.tmp"] := by
  have htmp : Path.pieces "p.tmp" = ["p.tmp"] := by
    rw [Path.pieces, String.splitOn, if_neg (by decide)]
    -- one step for each character and one for the end
    iterate 6 rw [String.splitOnAux]
    decide +kernel
  exact ⟨pieces?_name h (by cbv) (by decide +kernel), pieces?_name h htmp (by decide +kernel)⟩

/-- The sibling of `p` is `p.tmp`. -/
theorem withExtension_p : Path.withExtension "p" "tmp" = "p.tmp" := by
  have hpieces : Path.pieces "p" = ["p"] := by cbv
  rw [Path.withExtension, Path.trimmedPieces, hpieces]
  decide +kernel

/-- The files after a table was saved in `p`. -/
def savedFiles (files : Files) (table : Table Nat) : Files :=
  ((files.setAt ["p.tmp"] (.text (Registry.tableText table))).eraseAt ["p.tmp"]).setAt ["p"]
    (.text (Registry.tableText table))

/-- A changed registry can be saved in the file `p` unless there is a directory in its place. -/
theorem run_save_p {registry : Registry} {files : Files} (hhome : files.home = "/h")
    (hchanged : registry.changed = true) (hp : files.at? ["p"] ≠ some .directory)
    (htmp : files.at? ["p.tmp"] ≠ some .directory) :
    ((registry.save "p").run files).run = (.ok true, savedFiles files registry.table) := by
  have hpieces : Path.pieces "p" = ["p"] := by cbv
  have hparent : Path.parent? "p" = some "" := by
    rw [Path.parent?, Path.trimmedPieces, hpieces]
    decide +kernel
  have hparents : ((Registry.makeParent "p").run files).run = (.ok (), files) := by
    rw [Registry.makeParent, hparent]
    rfl
  have hpname : "p" ≠ "" ∧ "p" ≠ "." ∧ "p" ≠ ".." := by decide
  have htmpname : "p.tmp" ≠ "" ∧ "p.tmp" ≠ "." ∧ "p.tmp" ≠ ".." := by decide
  rw [Registry.save_of_changed hchanged, withExtension_p, savedFiles]
  generalize Registry.tableText registry.table = text
  have hwrite : files.write "p.tmp" text = .ok (files.setAt ["p.tmp"] (.text text)) :=
    Files.write_eq_ok_iff.2
      ⟨["p.tmp"], Files.locateNew_name (pieces?_p hhome).2 htmpname, htmp, rfl⟩
  have hwritten : (files.setAt ["p.tmp"] (.text text)).home = "/h" := hhome
  have hat : (files.setAt ["p.tmp"] (.text text)).at? ["p.tmp"] = some (.text text) :=
    Files.at?_setAt files _ (List.cons_ne_nil _ _)
  have hold : (files.setAt ["p.tmp"] (.text text)).locate "p.tmp" = .ok ["p.tmp"] :=
    Files.locate_name (pieces?_p hwritten).2 htmpname (by rw [hat]; rfl)
  have hfree : (files.setAt ["p.tmp"] (.text text)).at? ["p"] ≠ some .directory := by
    rw [Files.at?_setAt_of_key_ne _ _ (by decide)]
    exact hp
  have hrename := Files.rename_eq_ok hold hat
    (Files.locateNew_name (pieces?_p hwritten).1 hpname) hfree
  refine Results.run_bind_eq_ok_iff.2 ⟨(), _, hparents, ?_⟩
  refine Results.run_bind_eq_ok_iff.2 ⟨(), _, Registry.run_perform_eq_ok_iff.2 hwrite, ?_⟩
  exact Results.run_bind_eq_ok_iff.2 ⟨(), _, Registry.run_perform_eq_ok_iff.2 hrename, rfl⟩

/-- Saving the registry of one permission for the first time. -/
theorem perform_save_oneRegistry :
    perform "p" ⟨Files.empty "/h", oneRegistry⟩ .save = .ok ⟨oneFiles, oneRegistry⟩ := by
  rw [perform, run_save_p rfl rfl (by decide) (by decide)]
  rfl

/-- The registry of one permission is read back from its text. -/
theorem readsBack_oneRegistry : ReadsBack oneRegistry.table :=
  Registry.readsBack_iff.2 (by decide +kernel)

/-- A permission is registered and saved; then the registry is created anew and gets another
permission, which the file does not have yet. -/
theorem stored_of_runs_one :
    ∃ start s t, Starts "p" start ∧ Runs "p" [.register "A", .save] start s ∧
      Runs "p" [.create, .register "B"] s t ∧
      ∃ old new, stored "p" s.files = .ok old ∧ stored "p" t.files = .ok new ∧
        old.entries = [("A", 0)] ∧ old.entries <+: new.entries ∧
        new.entries <+: t.registry.table.entries ∧
        t.registry.table.entries = [("A", 0), ("B", 1)] := by
  have hstart : Starts "p" ⟨Files.empty "/h", Registry.empty⟩ := by
    rw [Starts, Registry.load, Files.exists?, Files.locate, (pieces?_p rfl).1]
    rfl
  have hsave : Step "p" .save ⟨Files.empty "/h", oneRegistry⟩ ⟨oneFiles, oneRegistry⟩ :=
    ⟨perform_save_oneRegistry, fun _ _ => readsBack_oneRegistry⟩
  have hsound : Sound "p" ⟨oneFiles, oneRegistry⟩ oneRegistry.table :=
    ((hstart.sound.registerAll ["A"]).save hsave).2
  have hs : Runs "p" [.register "A", .save] ⟨Files.empty "/h", Registry.empty⟩
      ⟨oneFiles, oneRegistry⟩ := ⟨_, .of_ne_save rfl (by simp), _, hsave, rfl⟩
  have ht : Runs "p" [.create, .register "B"] ⟨oneFiles, oneRegistry⟩
      ⟨oneFiles, (Registry.ofTable oneRegistry.table).register "B"⟩ :=
    ⟨_, hsound.create, _, .of_ne_save rfl (by simp), rfl⟩
  obtain ⟨first, old, new, -, hold, hnew, hmemory, hgrow, -⟩ := stored_of_runs hstart hs ht
  obtain rfl := Except.ok.inj (hsound.stored_eq.symm.trans hold)
  exact ⟨_, _, _, hstart, hs, ht, _, new, hold, hnew, rfl, hgrow, hmemory, rfl⟩

end Session

end SignalSchema
