import SignalSchema.Proofs.Layer.Loading

/-!
# Loading from other files

The layer of a file depends on the files that can be reached from it through includes, and on
nothing else: where these are found under the same paths and have the same values, the layer is the
same (`Sources.load_eq_of_agrees`).
-/

namespace SignalSchema.Layer

open Relation (ReflTransGen)
open Yaml (Value)

/-! ### Replacing includes by other layers -/

section Splice

variable {splice other : String → Except Fault Json} {current : String}

mutual
/-- A value becomes the same where its includes have the same layers. -/
theorem ofValue_congr {value : Value} {layer : Json}
    (h : ∀ path, .string path ∈ value.includes → ∀ below, splice path = .ok below →
      other path = .ok below)
    (hlayer : ofValue splice current value = .ok layer) :
    ofValue other current value = .ok layer := by
  cases value with
  | null | bool _ | number _ | string _ => exact hlayer
  | sequence items =>
    obtain ⟨layers, hitems, hlayer⟩ := Results.bind_eq_ok_iff.1 hlayer
    exact Results.bind_eq_ok_iff.2 ⟨layers, ofItems_congr h hitems, hlayer⟩
  | mapping entries =>
    obtain ⟨named, hentries, hlayer⟩ := Results.bind_eq_ok_iff.1 hlayer
    exact Results.bind_eq_ok_iff.2 ⟨named, ofEntries_congr h hentries, hlayer⟩
  | tagged tag value =>
    unfold ofValue at hlayer ⊢
    unfold Value.includes at h
    split at hlayer
    next htag =>
      rw [if_pos htag] at h ⊢
      split at hlayer
      next path => exact h path (List.mem_singleton_self _) layer hlayer
      next => cases hlayer
    next htag =>
      rw [if_neg htag] at h ⊢
      exact ofValue_congr h hlayer
/-- Items become the same where their includes have the same layers. -/
theorem ofItems_congr {items : List Value} {layers : List Json}
    (h : ∀ path, .string path ∈ Value.itemIncludes items → ∀ below, splice path = .ok below →
      other path = .ok below)
    (hlayers : ofItems splice current items = .ok layers) :
    ofItems other current items = .ok layers := by
  cases items with
  | nil => exact hlayers
  | cons item rest =>
    obtain ⟨layer, hitem, hlayers⟩ := Results.bind_eq_ok_iff.1 hlayers
    obtain ⟨others, hrest, hlayers⟩ := Results.bind_eq_ok_iff.1 hlayers
    have hfirst := ofValue_congr (fun path hpath => h path (List.mem_append_left _ hpath)) hitem
    have hothers := ofItems_congr (fun path hpath => h path (List.mem_append_right _ hpath)) hrest
    exact Results.bind_eq_ok_iff.2 ⟨layer, hfirst,
      Results.bind_eq_ok_iff.2 ⟨others, hothers, hlayers⟩⟩
/-- Entries become the same where their includes have the same layers. -/
theorem ofEntries_congr {entries : List (Value × Value)} {named : List (String × Json)}
    (h : ∀ path, .string path ∈ Value.entryIncludes entries → ∀ below, splice path = .ok below →
      other path = .ok below)
    (hnamed : ofEntries splice current entries = .ok named) :
    ofEntries other current entries = .ok named := by
  cases entries with
  | nil => exact hnamed
  | cons entry rest =>
    obtain ⟨key, value⟩ := entry
    obtain ⟨layer, hvalue, hnamed⟩ := Results.bind_eq_ok_iff.1 hnamed
    obtain ⟨others, hrest, hnamed⟩ := Results.bind_eq_ok_iff.1 hnamed
    have hfirst := ofValue_congr (fun path hpath => h path (List.mem_append_left _ hpath)) hvalue
    have hothers :=
      ofEntries_congr (fun path hpath => h path (List.mem_append_right _ hpath)) hrest
    exact Results.bind_eq_ok_iff.2 ⟨layer, hfirst,
      Results.bind_eq_ok_iff.2 ⟨others, hothers, hnamed⟩⟩
end

end Splice

namespace Sources

variable {sources other : Sources} {files : String → Prop} {chain : List String}
  {missing : FileError → Fault} {path : String} {layer : Json}

/-- Other sources have some files of the sources: these include only each other, are found under
the paths under which they were found, and have the same values. -/
structure Agrees (sources other : Sources) (files : String → Prop) : Prop where
  closed : ∀ file, files file → ∀ target, sources.Includes file target → files target
  canonical : ∀ path file, files file → sources.canonical path = .ok file →
    other.canonical path = .ok file
  value? : ∀ file, files file → other.value? file = sources.value? file

/-- One of these files has the same layer inside a chain. -/
theorem Agrees.layerAt_eq (h : sources.Agrees other files)
    (hroot : ∀ root, sources.canonical path = .ok root → files root)
    (hlayer : sources.layerAt chain missing path = .ok layer) :
    other.layerAt chain missing path = .ok layer := by
  induction chain using sources.chain_induction generalizing missing path layer with
  | grow chain ih =>
    have hattempt := sources.attempt_layerAt chain missing path
    rw [hlayer] at hattempt
    cases hattempt with
    | @value file value _ hcanonical hnew hvalue hreplaced =>
      have hfile := hroot file hcanonical
      have hbelow : ∀ relative, .string relative ∈ value.includes → ∀ below,
          sources.layerBelow chain file relative = .ok below →
            other.layerBelow chain file relative = .ok below := by
        intro relative hmem below
        exact ih file (sources.canonical_mem hcanonical) hnew fun target htarget =>
          h.closed file hfile target ⟨value, relative, hvalue, hmem, htarget⟩
      have hsame := (h.value? file hfile).trans hvalue
      rw [other.layerAt_eq, h.canonical path file hfile hcanonical]
      change (if chain.any (Path.same file) = true then _ else _) = _
      rw [if_neg (ne_true_of_eq_false hnew),
        read_bind_ofSource_of_some (other.layerBelow chain file) hsame]
      exact ofValue_congr hbelow hreplaced

/-- A file has the same layer in other sources that have all that can be reached from it. -/
theorem load_eq_of_agrees (hlayer : sources.load path = .ok layer)
    (h : sources.Agrees other files) (hroot : ∀ root, sources.canonical path = .ok root → files root) :
    other.load path = .ok layer := by
  rw [load_eq_layerAt] at hlayer ⊢
  exact h.layerAt_eq hroot hlayer

end Sources

end SignalSchema.Layer
