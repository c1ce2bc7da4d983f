import Mathlib
import SignalSchema.Proofs.Layer.Includes

/-!
# Loading layers

The loader keeps the chain of the files that it is in the middle of. Every call leaves the chain as
it was, also when it fails, so that what a call yields is decided by the chain that it begins with
(`Loading.Yields`). The number of files that are not on the chain (`Sources.room`) goes down with
every file that is loaded inside another one; `Sources.layerAt` recurses on it, and any bound above
it gives the same (`yields_loadFile`). A chain forbids the files on it, and it is shown from there
that a file is loaded exactly when it is `Loadable`.
-/

namespace SignalSchema.Layer

open Relation (ReflTransGen TransGen)
open Yaml (Value)

/-! ### Computations that keep the chain -/

namespace Loading

variable {α β : Type} {chain : List String} {loading : Loading α} {result : Except Fault α}

/-- A computation that begins with a chain has a result and leaves the chain as it was. -/
def Yields (loading : Loading α) (chain : List String) (result : Except Fault α) : Prop :=
  loading.run chain = some (result, chain)

/-- The second of two computations begins with the chain that the first one leaves. -/
theorem run_bind {next : α → Loading β} {chain' : List String}
    (h : loading.run chain = some (result, chain')) :
    (loading >>= next).run chain = ExceptT.bindCont next result chain' := by
  have hrun : (loading >>= next).run chain =
      (loading.run chain).bind fun (r, chain) => ExceptT.bindCont next r chain := rfl
  rw [hrun, h]
  rfl

/-- A value leaves the chain as it is. -/
theorem yields_pure (a : α) : (pure a : Loading α).Yields chain (.ok a) := rfl

/-- A fault leaves the chain as it is. -/
theorem yields_throw (fault : Fault) : (throw fault : Loading α).Yields chain (.error fault) := rfl

/-- A computation that knows no chain leaves it as it is. -/
theorem yields_liftM (result : Except Fault α) :
    (liftM result : Loading α).Yields chain result := by
  cases result <;> rfl

/-- Two computations leave the chain as it was if both do. -/
theorem Yields.bind {next : α → Loading β} {result' : α → Except Fault β}
    (h : loading.Yields chain result)
    (hnext : ∀ a, result = .ok a → (next a).Yields chain (result' a)) :
    (loading >>= next).Yields chain (result >>= result') := by
  rw [Yields, run_bind h]
  cases result with
  | ok a => exact hnext a rfl
  | error fault => rfl

/-- A computation begins with the chain that it asks for. -/
theorem yields_get_bind {next : List String → Loading α} (h : (next chain).Yields chain result) :
    (get >>= next).Yields chain result := h

/-- A file that was put on the chain is taken off again. -/
theorem Yields.inside {file : String} (h : loading.Yields (file :: chain) result) :
    (inside file loading).Yields chain result := by
  have hresult : (ExceptT.lift loading.run : Loading (Except Fault α)).run (file :: chain) =
      some (.ok result, file :: chain) := by
    have hrun : (ExceptT.lift loading.run : Loading (Except Fault α)).run (file :: chain) =
        (loading.run (file :: chain)).bind fun (r, chain) => some (.ok r, chain) := rfl
    rw [hrun, h]
    rfl
  have hpush : (modify (file :: ·) : Loading PUnit).run chain =
      some (.ok ⟨⟩, file :: chain) := rfl
  rw [Yields, Loading.inside, run_bind hpush]
  exact (run_bind hresult).trans (yields_liftM result)

end Loading

/-- A value stays when faults are told apart. -/
theorem ok_of_mapError {ε ε' α : Type} {x : Except ε α} {f : ε → ε'} {a : α}
    (h : x.mapError f = .ok a) : x = .ok a := by
  cases x with
  | ok b => exact congrArg Except.ok (Except.ok.inj h)
  | error e => cases h

section Splice

variable {chain : List String} {splice : String → Loading Json}
  {layers : String → Except Fault Json} {current : String}

mutual
/-- Replacing the includes of a value leaves the chain as it was if every include does. -/
theorem yields_ofValue (h : ∀ path, (splice path).Yields chain (layers path)) (value : Value) :
    (ofValue splice current value).Yields chain (ofValue layers current value) := by
  cases value with
  | null => exact Loading.yields_pure _
  | bool b => exact Loading.yields_pure _
  | number n => exact Loading.yields_pure _
  | string s => exact Loading.yields_pure _
  | sequence items => exact (yields_ofItems h items).bind fun _ _ => Loading.yields_pure _
  | mapping entries => exact (yields_ofEntries h entries).bind fun _ _ => Loading.yields_pure _
  | tagged tag value =>
    unfold ofValue
    split
    · cases value with
      | string path => exact h path
      | _ => exact Loading.yields_throw _
    · exact yields_ofValue h value
/-- Replacing the includes of items leaves the chain as it was if every include does. -/
theorem yields_ofItems (h : ∀ path, (splice path).Yields chain (layers path))
    (items : List Value) :
    (ofItems splice current items).Yields chain (ofItems layers current items) := by
  cases items with
  | nil => exact Loading.yields_pure _
  | cons item rest =>
    exact (yields_ofValue h item).bind fun _ _ =>
      (yields_ofItems h rest).bind fun _ _ => Loading.yields_pure _
/-- Replacing the includes of entries leaves the chain as it was if every include does. -/
theorem yields_ofEntries (h : ∀ path, (splice path).Yields chain (layers path))
    (entries : List (Value × Value)) :
    (ofEntries splice current entries).Yields chain (ofEntries layers current entries) := by
  cases entries with
  | nil => exact Loading.yields_pure _
  | cons entry rest =>
    obtain ⟨key, value⟩ := entry
    exact (yields_ofValue h value).bind fun _ _ =>
      (yields_ofEntries h rest).bind fun _ _ => Loading.yields_pure _
end

end Splice

namespace Sources

variable {sources : Sources} {chain : List String} {missing : FileError → Fault}
  {path file source : String} {layer : Json}

/-- The number of files that are not on a chain. -/
def room (sources : Sources) (chain : List String) : Nat :=
  (sources.files.filter fun file => !chain.any (Path.same file)).length

/-- A file that comes to the chain takes up room. -/
theorem room_cons_lt (hfile : file ∈ sources.files) (hnew : ¬ chain.any (Path.same file) = true) :
    sources.room (file :: chain) < sources.room chain := by
  have hsame : Path.same file file = true := by simp [Path.same]
  have hfilter : (sources.files.filter fun f => !(file :: chain).any (Path.same f)) =
      (sources.files.filter fun f => !chain.any (Path.same f)).filter
        fun f => !Path.same f file := by
    rw [List.filter_filter]
    exact congrArg (List.filter · sources.files)
      (funext fun f => by rw [List.any_cons, Bool.not_or])
  rw [room, room, hfilter, List.length_filter_lt_length_iff_exists]
  exact ⟨file, List.mem_filter.2 ⟨hfile, by simpa using hnew⟩, by simp [hsame]⟩

/-- No chain leaves more room than there are files. -/
theorem room_le (sources : Sources) (chain : List String) :
    sources.room chain ≤ sources.files.length :=
  List.length_filter_le _ _

/-- What holds of a chain if it holds of all chains with one more file holds of every chain. -/
theorem chain_induction (sources : Sources) {motive : List String → Prop}
    (grow : ∀ chain, (∀ file ∈ sources.files, chain.any (Path.same file) = false →
      motive (file :: chain)) → motive chain) (chain : List String) : motive chain := by
  induction hroom : sources.room chain using Nat.strongRecOn generalizing chain with
  | ind room ih =>
    subst hroom
    exact grow chain fun file hfile hnew =>
      ih _ (room_cons_lt hfile (ne_true_of_eq_false hnew)) _ rfl

/-- The layer of the file at a path, as it is loaded inside the files of a chain. -/
def layerAt (sources : Sources) (chain : List String) (missing : FileError → Fault)
    (path : String) : Except Fault Json :=
  match _hfile : sources.canonical path with
  | .error e => .error (missing e)
  | .ok file =>
    if _hnew : chain.any (Path.same file) then .error (.includeCycle file)
    else do
      let source ← (sources.read file).mapError (Fault.file file)
      sources.ofSource
        (fun relative =>
          let path := resolve file relative
          sources.layerAt (file :: chain) (fun _ => .includeNotFound path) path)
        file source
termination_by sources.room chain
decreasing_by exact room_cons_lt (sources.canonical_mem _hfile) _hnew

/-- The layers of the files that are included by a file, as they are loaded inside it. -/
def layerBelow (sources : Sources) (chain : List String) (file relative : String) :
    Except Fault Json :=
  let path := resolve file relative
  sources.layerAt (file :: chain) (fun _ => .includeNotFound path) path

/-- The layer of a file inside a chain: it is found, is not on the chain, and its text has a value
in which includes are replaced by the layers of files inside the longer chain. -/
theorem layerAt_eq : sources.layerAt chain missing path =
    (sources.canonical path).mapError missing >>= fun file =>
      if chain.any (Path.same file) then .error (.includeCycle file)
      else (sources.read file).mapError (Fault.file file) >>= fun source =>
        sources.ofSource (sources.layerBelow chain file) file source := by
  rw [layerAt]
  split
  next e hfile =>
    rw [hfile]
    rfl
  next file hfile =>
    rw [hfile]
    rfl

/-- With a bound above the room that a chain leaves, loading a file ends, and leaves the chain as it
was. -/
theorem yields_loadFile {bound : Nat} (h : sources.room chain < bound) :
    (sources.loadFile bound missing path).Yields chain (sources.layerAt chain missing path) := by
  induction bound generalizing chain missing path with
  | zero => exact absurd h (Nat.not_lt_zero _)
  | succ bound ih =>
    rw [loadFile, layerAt_eq]
    refine (Loading.yields_liftM _).bind fun file hfile => Loading.yields_get_bind ?_
    split
    next => exact Loading.yields_throw _
    next hnew =>
      refine (Loading.yields_liftM _).bind fun source _ => Loading.Yields.inside ?_
      have hroom : sources.room (file :: chain) < bound := by
        have hlt := room_cons_lt (sources.canonical_mem (ok_of_mapError hfile)) hnew
        omega
      unfold ofSource
      split
      next => exact yields_ofValue (fun relative => ih hroom) _
      next => exact Loading.yields_throw _

/-- The result of the loader is the layer of the file inside the empty chain. -/
theorem load_eq_layerAt (sources : Sources) (path : String) :
    sources.load path = sources.layerAt [] (.file path) path := by
  have hroom : sources.room [] < sources.chainBound := Nat.lt_succ_of_le (sources.room_le [])
  rw [load, outcome, show (sources.loadFile sources.chainBound (.file path) path).run [] = _ from
    yields_loadFile hroom]

/-! ### What a file is loaded to -/

/-- A file with a value has the layer of this value. -/
theorem read_bind_ofSource_of_some (splice : String → Except Fault Json) {value : Value}
    (h : sources.value? file = some value) :
    ((sources.read file).mapError (Fault.file file) >>= fun source =>
      sources.ofSource splice file source) = ofValue splice file value := by
  obtain ⟨source, hread, hparse⟩ := Option.bind_eq_some_iff.1 h
  rw [Results.toOption_eq_some_iff.1 hread]
  change sources.ofSource splice file source = _
  rw [ofSource, hparse]

/-- A file without a value has no layer, and this is no matter of cycles. -/
theorem read_bind_ofSource_of_none (splice : String → Except Fault Json)
    (h : sources.value? file = none) :
    ∃ fault, (∀ target, fault ≠ .includeCycle target) ∧
      ((sources.read file).mapError (Fault.file file) >>= fun source =>
        sources.ofSource splice file source) = .error fault := by
  unfold value? at h
  cases hread : sources.read file with
  | error e => exact ⟨.file file e, fun _ => Fault.noConfusion, rfl⟩
  | ok source =>
    rw [hread] at h
    have hparse : sources.parse? source = none := h
    refine ⟨.layerText file, fun _ => Fault.noConfusion, ?_⟩
    change sources.ofSource splice file source = _
    rw [ofSource, hparse]
    rfl

/-- All that can happen when a path is loaded inside a chain. -/
inductive Attempt (sources : Sources) (chain : List String) (missing : FileError → Fault)
    (path : String) : Except Fault Json → Prop
  | missing {e : FileError} (canonical : sources.canonical path = .error e) :
    Attempt sources chain missing path (.error (missing e))
  | cycle {file : String} (canonical : sources.canonical path = .ok file)
      (onChain : chain.any (Path.same file) = true) :
    Attempt sources chain missing path (.error (.includeCycle file))
  | noValue {file : String} {fault : Fault} (canonical : sources.canonical path = .ok file)
      (new : chain.any (Path.same file) = false) (value?_eq : sources.value? file = none)
      (ne_cycle : ∀ target, fault ≠ .includeCycle target) :
    Attempt sources chain missing path (.error fault)
  | value {file : String} {value : Value} {result : Except Fault Json}
      (canonical : sources.canonical path = .ok file)
      (new : chain.any (Path.same file) = false) (value?_eq : sources.value? file = some value)
      (replaced : ofValue (sources.layerBelow chain file) file value = result) :
    Attempt sources chain missing path result

/-- Loading a path inside a chain is one of the attempts. -/
theorem attempt_layerAt (sources : Sources) (chain : List String) (missing : FileError → Fault)
    (path : String) :
    Attempt sources chain missing path (sources.layerAt chain missing path) := by
  rw [layerAt_eq]
  cases hcanonical : sources.canonical path with
  | error e => exact .missing hcanonical
  | ok file =>
    change Attempt sources chain missing path
      (if chain.any (Path.same file) = true then .error (.includeCycle file) else _)
    split
    next honChain => exact .cycle hcanonical honChain
    next hnew =>
      have hnew := eq_false_of_ne_true hnew
      cases hvalue : sources.value? file with
      | none =>
        obtain ⟨fault, hne, hfault⟩ :=
          read_bind_ofSource_of_none (sources.layerBelow chain file) hvalue
        rw [hfault]
        exact .noValue hcanonical hnew hvalue hne
      | some value =>
        exact .value hcanonical hnew hvalue (read_bind_ofSource_of_some _ hvalue).symm

/-- A file with a value is loaded to the value with its includes replaced. -/
theorem load_eq_ofValue {value : Value} (hcanonical : sources.canonical path = .ok file)
    (hvalue : sources.value? file = some value) :
    sources.load path = ofValue (sources.layerBelow [] file) file value := by
  have hread := read_bind_ofSource_of_some (sources.layerBelow [] file) hvalue
  rw [load_eq_layerAt, layerAt_eq, hcanonical]
  exact hread

/-- The layer of a file is an unfolding of its value. -/
theorem unfolds_of_layerAt (h : sources.layerAt chain missing path = .ok layer) :
    ∃ file value, sources.canonical path = .ok file ∧ sources.value? file = some value ∧
      Unfolds sources file value layer := by
  induction chain using sources.chain_induction generalizing missing path layer with
  | grow chain ih =>
    have hattempt := sources.attempt_layerAt chain missing path
    rw [h] at hattempt
    cases hattempt with
    | @value file value _ hcanonical hnew hvalue hreplaced =>
      refine ⟨file, value, hcanonical, hvalue, unfolds_of_ofValue (fun relative below hbelow => ?_)
        hreplaced⟩
      exact ih file (sources.canonical_mem hcanonical) hnew hbelow

/-- A file that has a layer is loadable, and nothing that can be reached from it is on the chain. -/
theorem loadable_of_layerAt (h : sources.layerAt chain missing path = .ok layer) :
    ∃ root, sources.canonical path = .ok root ∧ sources.Loadable root ∧
      ∀ file, ReflTransGen sources.Includes root file → chain.any (Path.same file) = false := by
  induction chain using sources.chain_induction generalizing missing path layer with
  | grow chain ih =>
    have hattempt := sources.attempt_layerAt chain missing path
    rw [h] at hattempt
    cases hattempt with
    | @value root value _ hcanonical hnew hvalue hreplaced =>
      have ih := @ih root (sources.canonical_mem hcanonical) hnew
      have hincludes := exists_ofValue_eq_ok_iff.1 ⟨layer, hreplaced⟩
      -- what is included is loaded inside the longer chain
      have hbelow : ∀ target, sources.Includes root target → sources.Loadable target ∧
          ∀ file, ReflTransGen sources.Includes target file →
            (root :: chain).any (Path.same file) = false := by
        rintro target ⟨value', relative, hvalue', hmem, htarget⟩
        obtain rfl := Option.some.inj (hvalue.symm.trans hvalue')
        obtain ⟨_, below, heq, hlayer⟩ := hincludes _ hmem
        obtain rfl := Value.string.inj heq
        obtain ⟨target', htarget', hloadable⟩ := ih hlayer
        obtain rfl := Except.ok.inj (htarget.symm.trans htarget')
        exact hloadable
      have hsound : sources.Sound root := by
        refine ⟨value, hvalue, fun payload hpayload => ?_⟩
        obtain ⟨relative, below, heq, hlayer⟩ := hincludes payload hpayload
        obtain ⟨target, htarget, -⟩ := ih hlayer
        exact ⟨relative, target, heq, htarget⟩
      have hacyclic : ∀ file, TransGen sources.Includes root file →
          Path.same file root = false := by
        intro file hfile
        obtain ⟨target, htarget, hfile⟩ := TransGen.head'_iff.1 hfile
        have hchain := (hbelow target htarget).2 file hfile
        rw [List.any_cons, Bool.or_eq_false_iff] at hchain
        exact hchain.1
      refine ⟨root, hcanonical,
        .of_below hsound hacyclic fun target htarget => (hbelow target htarget).1,
        fun file hfile => ?_⟩
      rcases hfile.cases_head with rfl | ⟨target, htarget, hfile⟩
      · exact hnew
      · have hchain := (hbelow target htarget).2 file hfile
        rw [List.any_cons, Bool.or_eq_false_iff] at hchain
        exact hchain.2

/-- A loadable file has a layer inside a chain if nothing that can be reached from it is on the
chain. -/
theorem exists_layerAt_eq_ok {root : String} (hcanonical : sources.canonical path = .ok root)
    (hloadable : sources.Loadable root)
    (hchain : ∀ file, ReflTransGen sources.Includes root file →
      chain.any (Path.same file) = false) :
    ∃ layer, sources.layerAt chain missing path = .ok layer := by
  induction chain using sources.chain_induction generalizing missing path root with
  | grow chain ih =>
    obtain ⟨value, hvalue, hincludes⟩ := hloadable.sound root .refl
    have hattempt := sources.attempt_layerAt chain missing path
    generalize sources.layerAt chain missing path = result at hattempt ⊢
    cases hattempt with
    | missing hmissing => cases hcanonical.symm.trans hmissing
    | cycle hfile honChain =>
      obtain rfl := Except.ok.inj (hcanonical.symm.trans hfile)
      cases honChain.symm.trans (hchain root .refl)
    | noValue hfile hnew hnone =>
      obtain rfl := Except.ok.inj (hcanonical.symm.trans hfile)
      cases hvalue.symm.trans hnone
    | value hfile hnew hvalue' hreplaced =>
      obtain rfl := Except.ok.inj (hcanonical.symm.trans hfile)
      obtain rfl := Option.some.inj (hvalue.symm.trans hvalue')
      rw [← hreplaced, exists_ofValue_eq_ok_iff]
      intro payload hpayload
      obtain ⟨relative, target, rfl, htarget⟩ := hincludes payload hpayload
      have hinclude : sources.Includes root target := ⟨value, relative, hvalue, hpayload, htarget⟩
      obtain ⟨layer, hlayer⟩ := ih root (sources.canonical_mem hfile) hnew htarget
        (hloadable.of_includes hinclude) fun file hreach => by
          rw [List.any_cons, Bool.or_eq_false_iff]
          exact ⟨hloadable.acyclic root .refl file (.head' hinclude hreach),
            hchain file (.head hinclude hreach)⟩
      exact ⟨relative, layer, rfl, hlayer⟩

/-- The chains of files that are loaded inside each other, from the file at a path inwards. -/
inductive IncludeChain (sources : Sources) (path : String) : List String → Prop
  | root {file : String} (canonical : sources.canonical path = .ok file) :
    IncludeChain sources path [file]
  | step {current file : String} {above : List String}
      (chain : IncludeChain sources path (current :: above))
      (includes : sources.Includes current file)
      (new : (current :: above).any (Path.same file) = false) :
    IncludeChain sources path (file :: current :: above)

/-- An include of the last file of a chain leads back to the chain. -/
def ClosesChain (sources : Sources) (path file : String) : Prop :=
  ∃ current above, sources.IncludeChain path (current :: above) ∧
    sources.Includes current file ∧ (current :: above).any (Path.same file) = true

/-- A cycle that is reported below a file on a chain is closed by an include. -/
theorem closesChain_of_ofValue {origin current : String} {above : List String} {value : Value}
    (hchain : sources.IncludeChain origin (current :: above))
    (hvalue : sources.value? current = some value)
    (h : ofValue (sources.layerBelow above current) current value = .error (.includeCycle file)) :
    sources.ClosesChain origin file := by
  generalize hfull : current :: above = chain at hchain
  induction chain using sources.chain_induction
    generalizing current above value with
  | grow chain ih =>
    subst hfull
    obtain hpath | ⟨relative, hmem, hlayer⟩ := exists_of_ofValue_eq_error h
    · cases hpath
    have hattempt := sources.attempt_layerAt (current :: above)
      (fun _ => .includeNotFound (resolve current relative)) (resolve current relative)
    rw [show sources.layerAt _ _ _ = _ from hlayer] at hattempt
    cases hattempt with
    | cycle hcanonical honChain =>
      exact ⟨current, above, hchain, ⟨value, relative, hvalue, hmem, hcanonical⟩, honChain⟩
    | noValue _ _ _ hne => exact absurd rfl (hne file)
    | @value target value' _ hcanonical hnew hvalue' hreplaced =>
      exact ih target (sources.canonical_mem hcanonical) hnew hvalue' hreplaced rfl
        (hchain.step ⟨value, relative, hvalue, hmem, hcanonical⟩ hnew)

/-- A cycle is reported for a file on the chain of the files that are loaded. -/
theorem closesChain_of_load (h : sources.load path = .error (.includeCycle file)) :
    sources.ClosesChain path file := by
  rw [load_eq_layerAt] at h
  have hattempt := sources.attempt_layerAt [] (.file path) path
  rw [h] at hattempt
  cases hattempt with
  | cycle _ honChain => cases honChain
  | noValue _ _ _ hne => exact absurd rfl (hne file)
  | value hcanonical _ hvalue hreplaced =>
    exact closesChain_of_ofValue (.root hcanonical) hvalue hreplaced

/-- The files that have a layer are the loadable ones. -/
theorem exists_load_eq_ok_iff : (∃ layer, sources.load path = .ok layer) ↔
    ∃ root, sources.canonical path = .ok root ∧ sources.Loadable root := by
  rw [load_eq_layerAt]
  constructor
  · rintro ⟨layer, h⟩
    obtain ⟨root, hcanonical, hloadable, -⟩ := loadable_of_layerAt h
    exact ⟨root, hcanonical, hloadable⟩
  · rintro ⟨root, hcanonical, hloadable⟩
    exact exists_layerAt_eq_ok hcanonical hloadable fun _ _ => rfl

/-- The layer of a file is an unfolding of the value of the file that the path names. -/
theorem unfolds_of_load (h : sources.load path = .ok layer) :
    ∃ root value, sources.canonical path = .ok root ∧ sources.value? root = some value ∧
      Unfolds sources root value layer :=
  unfolds_of_layerAt ((load_eq_layerAt sources path).symm.trans h)

/-- All objects in the layer of a file have distinct field names. -/
theorem distinct_of_load (h : sources.load path = .ok layer) : layer.Distinct := by
  obtain ⟨_, _, -, -, hunfolds⟩ := unfolds_of_load h
  exact hunfolds.distinct

/-- The layer of a loadable file is what its value unfolds to. -/
theorem load_eq_ok_iff_unfolds {root : String} {value : Value}
    (hcanonical : sources.canonical path = .ok root) (hvalue : sources.value? root = some value)
    (hloadable : sources.Loadable root) :
    sources.load path = .ok layer ↔ Unfolds sources root value layer := by
  obtain ⟨layer', h⟩ := exists_load_eq_ok_iff.2 ⟨root, hcanonical, hloadable⟩
  obtain ⟨root', value', hcanonical', hvalue', hunfolds⟩ := unfolds_of_load h
  obtain rfl := Except.ok.inj (hcanonical.symm.trans hcanonical')
  obtain rfl := Option.some.inj (hvalue.symm.trans hvalue')
  constructor
  · intro hlayer
    obtain rfl := Except.ok.inj (h.symm.trans hlayer)
    exact hunfolds
  · intro hlayer
    rw [h, hunfolds.unique hlayer]

/-- Loading a file ends and leaves the chain of files as it was, whatever the chain is and however
it ends; a depth above the number of files that are not on the chain is not exceeded. A file has a
layer exactly when it is loadable, and its layer is what its value unfolds to. A cycle is reported
only for a file that is on the chain of the files that are loaded. -/
theorem load_eq_ok_iff_loadable (sources : Sources) (path : String) :
    (∀ chain missing path, sources.room chain < sources.chainBound ∧
      ∃ result, ∀ bound, sources.room chain < bound →
        (sources.loadFile bound missing path).run chain = some (result, chain)) ∧
    ((∃ layer, sources.load path = .ok layer) ↔
      ∃ root, sources.canonical path = .ok root ∧ sources.Loadable root) ∧
    (∀ layer, sources.load path = .ok layer ↔ ∃ root value,
      sources.canonical path = .ok root ∧ sources.Loadable root ∧
        sources.value? root = some value ∧ Unfolds sources root value layer) ∧
    ∀ file, sources.load path = .error (.includeCycle file) → sources.ClosesChain path file := by
  refine ⟨fun chain missing path => ⟨Nat.lt_succ_of_le (sources.room_le chain), _,
    fun bound => yields_loadFile⟩, exists_load_eq_ok_iff, fun layer => ⟨fun h => ?_, ?_⟩,
    fun file => closesChain_of_load⟩
  · obtain ⟨root, hcanonical, hloadable⟩ := exists_load_eq_ok_iff.1 ⟨layer, h⟩
    obtain ⟨value, hvalue, -⟩ := hloadable.sound root .refl
    exact ⟨root, value, hcanonical, hloadable, hvalue,
      (load_eq_ok_iff_unfolds hcanonical hvalue hloadable).1 h⟩
  · rintro ⟨root, value, hcanonical, hloadable, hvalue, hunfolds⟩
    exact (load_eq_ok_iff_unfolds hcanonical hvalue hloadable).2 hunfolds

end Sources

/-- A file that includes another one directly and through a third one. -/
def sharingFiles : Files where
  home := "/h"
  entries := Table.ofList
    [("r", .text "[!include a, !include c]"), ("a", .text "!include c"), ("c", .text "1")]

/-- Two files that include each other. -/
def ringFiles : Files where
  home := "/h"
  entries := Table.ofList [("a", .text "!include b"), ("b", .text "!include a")]

/-- The shared file is loaded twice and the ring is reported, also inside of a file of the ring. -/
theorem load_sharingFiles_ringFiles :
    (∃ root value, (sources sharingFiles).canonical "r" = .ok root ∧
      (sources sharingFiles).Loadable root ∧ (sources sharingFiles).value? root = some value ∧
      Unfolds (sources sharingFiles) root value
        (.array [.number (.int 1), .number (.int 1)])) ∧
    (∃ file, load ringFiles "a" = .error (.includeCycle file) ∧
      (sources ringFiles).ClosesChain "a" file) ∧
    ∃ result, ((sources ringFiles).loadFile (sources ringFiles).chainBound (.file "a") "a").run
      ["/h/b"] = some (result, ["/h/b"]) := by
  have hsharing : load sharingFiles "r" = .ok (.array [.number (.int 1), .number (.int 1)]) := by
    cbv
  have hring : load ringFiles "a" = .error (.includeCycle "/h/a") := by cbv
  obtain ⟨-, -, hunfolds, -⟩ := Sources.load_eq_ok_iff_loadable (sources sharingFiles) "r"
  obtain ⟨hyields, -, -, hcycle⟩ := Sources.load_eq_ok_iff_loadable (sources ringFiles) "a"
  obtain ⟨hroom, result, hresult⟩ := hyields ["/h/b"] (.file "a") "a"
  exact ⟨(hunfolds _).1 hsharing, ⟨_, hring, hcycle _ hring⟩, result, hresult _ hroom⟩

end SignalSchema.Layer
