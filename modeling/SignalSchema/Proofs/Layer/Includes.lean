import Mathlib.Data.List.Induction
import Mathlib.Data.List.Nodup
import Mathlib.Logic.Relation
import SignalSchema.Layer.Loader
import SignalSchema.Proofs.Json.DistinctNames
import SignalSchema.Proofs.Results
import SignalSchema.Proofs.Table

/-!
# Includes

The files of a layer form a graph, in which a file leads to the files that its include tags name.
What loading amounts to is told in terms of this graph and without a chain: which files can be
loaded (`Sources.Loadable`), and what a value becomes when every include in it is replaced by what
the included file becomes (`Unfolds`).

Replacing the includes of one value takes them in the order in which they stand in it. It fails like
the first one that fails (`failure?_ofValue`), and what it yields is an unfolding if the included
layers are (`unfolds_of_ofValue`).
-/

namespace SignalSchema

/-! ### Objects of entries -/

/-- The fields that remain of entries in which a name may occur several times: each name has the
place of its first entry and the value of its last one. -/
structure Merges (entries fields : List (String × Json)) : Prop where
  names : ∀ name, name ∈ fields.map Prod.fst ↔ name ∈ entries.map Prod.fst
  places : (fields.map Prod.fst).Pairwise fun a b =>
    (entries.map Prod.fst).idxOf a < (entries.map Prod.fst).idxOf b
  values : ∀ name, Json.field? fields name = Json.field? entries.reverse name

namespace Merges

variable {entries fields fields' : List (String × Json)}

/-- The fields stand in the order of their first entries. -/
theorem pairwise (h : Merges entries fields) : fields.Pairwise fun a b =>
    (entries.map Prod.fst).idxOf a.1 < (entries.map Prod.fst).idxOf b.1 := by
  have hplaces := h.places
  rwa [List.pairwise_map] at hplaces

/-- No name has two fields. -/
theorem nodup (h : Merges entries fields) : (fields.map Prod.fst).Nodup := by
  refine List.Pairwise.imp ?_ h.places
  rintro name _ hlt rfl
  exact Nat.lt_irrefl _ hlt

/-- There is only one way to merge entries. -/
theorem unique (h : Merges entries fields) (h' : Merges entries fields') : fields = fields' := by
  have hmem : ∀ e, e ∈ fields ↔ e ∈ fields' := by
    rintro ⟨name, v⟩
    rw [← Table.get?_eq_some_iff (t := ⟨fields, h.nodup⟩),
      ← Table.get?_eq_some_iff (t := ⟨fields', h'.nodup⟩)]
    exact Eq.congr_left ((h.values name).trans (h'.values name).symm)
  have hperm : fields.Perm fields' := (List.perm_ext_iff_of_nodup (List.Nodup.of_map _ h.nodup)
    (List.Nodup.of_map _ h'.nodup)).2 hmem
  exact hperm.eq_of_pairwise (fun _ _ _ _ hlt hgt => absurd hgt (Nat.lt_asymm hlt)) h.pairwise
    h'.pairwise

end Merges

/-- Entering entries in a table merges them. -/
theorem merges_ofList (entries : List (String × Json)) :
    Merges entries (Table.ofList entries).entries where
  names name := by rw [← Table.keys, Table.keys_ofList, List.mem_eraseDups]
  places := by
    rw [← Table.keys, Table.keys_ofList]
    exact pairwise_idxOf_eraseDups _
  values := Table.get?_ofList entries

end SignalSchema

namespace SignalSchema.Yaml.Value

mutual
/-- What the include tags of a value are put on, in order. Keys are left out, and so is what is
inside of an included path. -/
def includes : Value → List Value
  | .null | .bool _ | .number _ | .string _ => []
  | .sequence items => itemIncludes items
  | .mapping entries => entryIncludes entries
  | .tagged tag value => if tag = Layer.includeTag then [value] else includes value
/-- What the include tags of items are put on. -/
def itemIncludes : List Value → List Value
  | [] => []
  | item :: rest => includes item ++ itemIncludes rest
/-- What the include tags of the values of entries are put on. -/
def entryIncludes : List (Value × Value) → List Value
  | [] => []
  | (_, value) :: rest => includes value ++ entryIncludes rest
end

end SignalSchema.Yaml.Value

namespace SignalSchema.Layer

open Yaml (Value)

namespace Sources

variable (sources : Sources)

/-- The value of a file, absent if the file cannot be read or its text has no value. -/
def value? (file : String) : Option Value :=
  (sources.read file).toOption.bind sources.parse?

/-- A file has an include of another one. -/
def Includes (file target : String) : Prop :=
  ∃ value path, sources.value? file = some value ∧ .string path ∈ value.includes ∧
    sources.canonical (resolve file path) = .ok target

/-- A file has a value, its include tags are put on texts, and these are paths of files. -/
def Sound (file : String) : Prop :=
  ∃ value, sources.value? file = some value ∧ ∀ payload ∈ value.includes,
    ∃ path target, payload = .string path ∧ sources.canonical (resolve file path) = .ok target

/-- All that can be reached from a file through includes is sound, and no file can be reached from
itself. -/
structure Loadable (root : String) : Prop where
  sound : ∀ file, Relation.ReflTransGen sources.Includes root file → sources.Sound file
  acyclic : ∀ file, Relation.ReflTransGen sources.Includes root file → ∀ target,
    Relation.TransGen sources.Includes file target → Path.same target file = false

namespace Loadable

variable {sources} {root file : String}

/-- What a loadable file includes is loadable. -/
theorem of_includes (h : sources.Loadable root) (hincludes : sources.Includes root file) :
    sources.Loadable file where
  sound target htarget := h.sound target (.head hincludes htarget)
  acyclic target htarget := h.acyclic target (.head hincludes htarget)

/-- A file is loadable if it is sound, is not included below itself, and includes only loadable
files. -/
theorem of_below (hsound : sources.Sound root)
    (hacyclic : ∀ target, Relation.TransGen sources.Includes root target →
      Path.same target root = false)
    (hbelow : ∀ target, sources.Includes root target → sources.Loadable target) :
    sources.Loadable root where
  sound file hfile := by
    rcases hfile.cases_head with rfl | ⟨target, hincludes, hfile⟩
    · exact hsound
    · exact (hbelow target hincludes).sound file hfile
  acyclic file hfile := by
    rcases hfile.cases_head with rfl | ⟨target, hincludes, hfile⟩
    · exact hacyclic
    · exact (hbelow target hincludes).acyclic file hfile

end Loadable

end Sources

mutual
/-- What the value of a file becomes when every include is replaced by what the included file
becomes. -/
inductive Unfolds (sources : Sources) : String → Value → Json → Prop
  | null {file : String} : Unfolds sources file .null .null
  | bool {file : String} {b : Bool} : Unfolds sources file (.bool b) (.bool b)
  | number {file : String} {n : Number} : Unfolds sources file (.number n) (number n)
  | string {file s : String} : Unfolds sources file (.string s) (.string s)
  | sequence {file : String} {items : List Value} {layers : List Json}
      (h : ItemsUnfold sources file items layers) :
      Unfolds sources file (.sequence items) (.array layers)
  | mapping {file : String} {entries : List (Value × Value)} {named fields : List (String × Json)}
      (h : EntriesUnfold sources file entries named) (merges : Merges named fields) :
      Unfolds sources file (.mapping entries) (.object fields)
  | tagged {file tag : String} {value : Value} {layer : Json} (tag_ne : tag ≠ includeTag)
      (h : Unfolds sources file value layer) : Unfolds sources file (.tagged tag value) layer
  | included {file path target : String} {value : Value} {layer : Json}
      (canonical : sources.canonical (resolve file path) = .ok target)
      (value?_eq : sources.value? target = some value) (h : Unfolds sources target value layer) :
      Unfolds sources file (.tagged includeTag (.string path)) layer
/-- What items become, one after the other. -/
inductive ItemsUnfold (sources : Sources) : String → List Value → List Json → Prop
  | nil {file : String} : ItemsUnfold sources file [] []
  | cons {file : String} {item : Value} {items : List Value} {layer : Json} {layers : List Json}
      (h : Unfolds sources file item layer) (rest : ItemsUnfold sources file items layers) :
      ItemsUnfold sources file (item :: items) (layer :: layers)
/-- What entries become, one after the other. A key becomes its name, whatever is inside of it. -/
inductive EntriesUnfold (sources : Sources) :
    String → List (Value × Value) → List (String × Json) → Prop
  | nil {file : String} : EntriesUnfold sources file [] []
  | cons {file : String} {key value : Value} {entries : List (Value × Value)} {layer : Json}
      {named : List (String × Json)} (h : Unfolds sources file value layer)
      (rest : EntriesUnfold sources file entries named) :
      EntriesUnfold sources file ((key, value) :: entries) ((key.name, layer) :: named)
end

mutual
/-- A value of a file becomes one layer only. -/
theorem Unfolds.unique {sources : Sources} {file : String} {value : Value} {layer layer' : Json} :
    Unfolds sources file value layer → Unfolds sources file value layer' → layer = layer'
  | .null, .null => rfl
  | .bool, .bool => rfl
  | .number, .number => rfl
  | .string, .string => rfl
  | .sequence h, .sequence h' => by rw [h.unique h']
  | .mapping h merges, .mapping h' merges' => by
    obtain rfl := h.unique h'
    rw [merges.unique merges']
  | .tagged _ h, .tagged _ h' => h.unique h'
  | .tagged tag_ne _, .included .. => absurd rfl tag_ne
  | .included .., .tagged tag_ne _ => absurd rfl tag_ne
  | .included canonical value?_eq h, .included canonical' value?_eq' h' => by
    obtain rfl := Except.ok.inj (canonical.symm.trans canonical')
    obtain rfl := Option.some.inj (value?_eq.symm.trans value?_eq')
    exact h.unique h'
/-- Items of a file become one list of layers only. -/
theorem ItemsUnfold.unique {sources : Sources} {file : String} {items : List Value}
    {layers layers' : List Json} :
    ItemsUnfold sources file items layers → ItemsUnfold sources file items layers' →
      layers = layers'
  | .nil, .nil => rfl
  | .cons h rest, .cons h' rest' => by rw [h.unique h', rest.unique rest']
/-- Entries of a file become one list of entries only. -/
theorem EntriesUnfold.unique {sources : Sources} {file : String}
    {entries : List (Value × Value)} {named named' : List (String × Json)} :
    EntriesUnfold sources file entries named → EntriesUnfold sources file entries named' →
      named = named'
  | .nil, .nil => rfl
  | .cons h rest, .cons h' rest' => by rw [h.unique h', rest.unique rest']
end

/-- A number of a layer is no object. -/
theorem distinct_number (n : Number) : (number n).Distinct := by
  cases n with
  | int n => trivial
  | double x =>
    rw [number]
    split <;> trivial

mutual
/-- What a value of a file becomes has distinct field names. -/
theorem Unfolds.distinct {sources : Sources} {file : String} {value : Value} {layer : Json} :
    Unfolds sources file value layer → layer.Distinct
  | .null => trivial
  | .bool => trivial
  | .number => distinct_number _
  | .string => trivial
  | .sequence h => Json.distinct_array_iff.2 h.distinct
  | .mapping h merges => by
    obtain rfl := merges.unique (merges_ofList _)
    rw [← Json.objectOf_eq]
    exact Json.distinct_objectOf h.distinct
  | .tagged _ h => h.distinct
  | .included _ _ h => h.distinct
/-- What items of a file become has distinct field names. -/
theorem ItemsUnfold.distinct {sources : Sources} {file : String} {items : List Value}
    {layers : List Json} : ItemsUnfold sources file items layers → ∀ layer ∈ layers, layer.Distinct
  | .nil => List.forall_mem_nil _
  | .cons h rest => List.forall_mem_cons.2 ⟨h.distinct, rest.distinct⟩
/-- What entries of a file become has distinct field names. -/
theorem EntriesUnfold.distinct {sources : Sources} {file : String}
    {entries : List (Value × Value)} {named : List (String × Json)} :
    EntriesUnfold sources file entries named → ∀ e ∈ named, e.2.Distinct
  | .nil => List.forall_mem_nil _
  | .cons h rest => List.forall_mem_cons.2 ⟨h.distinct, rest.distinct⟩
end

/-! ### Replacing the includes of a value -/

section Splice

variable {splice : String → Except Fault Json} {current : String}

/-- Why an include cannot be replaced, if it cannot. -/
def includeFailure? (splice : String → Except Fault Json) (current : String) :
    Value → Option Fault
  | .string path => Results.failure? (splice path)
  | _ => some (.includePath current)

mutual
/-- Replacing the includes of a value fails like the first one that fails. -/
theorem failure?_ofValue (value : Value) : Results.failure? (ofValue splice current value) =
    value.includes.findSome? (includeFailure? splice current) := by
  cases value with
  | null => rfl
  | bool b => rfl
  | number n => rfl
  | string s => rfl
  | sequence items => exact Results.failure?_bind_ok.trans (failure?_ofItems items)
  | mapping entries => exact Results.failure?_bind_ok.trans (failure?_ofEntries entries)
  | tagged tag value =>
    unfold ofValue Value.includes
    split
    · cases value with
      | string path =>
        rw [List.findSome?_cons, includeFailure?]
        dsimp only
        cases splice path <;> rfl
      | _ => rfl
    · exact failure?_ofValue value
/-- Replacing the includes of items fails like the first one that fails. -/
theorem failure?_ofItems (items : List Value) : Results.failure? (ofItems splice current items) =
    (Value.itemIncludes items).findSome? (includeFailure? splice current) := by
  cases items with
  | nil => rfl
  | cons item rest =>
    rw [Value.itemIncludes, List.findSome?_append]
    exact Results.failure?_bind (failure?_ofValue item) fun _ _ =>
      Results.failure?_bind_ok.trans (failure?_ofItems rest)
/-- Replacing the includes of entries fails like the first one that fails. -/
theorem failure?_ofEntries (entries : List (Value × Value)) :
    Results.failure? (ofEntries splice current entries) =
      (Value.entryIncludes entries).findSome? (includeFailure? splice current) := by
  cases entries with
  | nil => rfl
  | cons entry rest =>
    obtain ⟨key, value⟩ := entry
    rw [Value.entryIncludes, List.findSome?_append]
    exact Results.failure?_bind (failure?_ofValue value) fun _ _ =>
      Results.failure?_bind_ok.trans (failure?_ofEntries rest)
end

/-- The includes of a value can be replaced exactly when they are put on texts that have layers. -/
theorem exists_ofValue_eq_ok_iff {value : Value} :
    (∃ layer, ofValue splice current value = .ok layer) ↔ ∀ payload ∈ value.includes,
      ∃ path layer, payload = .string path ∧ splice path = .ok layer := by
  rw [← Results.failure?_eq_none_iff, failure?_ofValue, List.findSome?_eq_none_iff]
  refine forall₂_congr fun payload _ => ?_
  cases payload with
  | string path => simp [includeFailure?, Results.failure?_eq_none_iff]
  | _ => simp [includeFailure?]

/-- If the includes of a value cannot be replaced, then one of them cannot. -/
theorem exists_of_ofValue_eq_error {value : Value} {fault : Fault}
    (h : ofValue splice current value = .error fault) :
    fault = .includePath current ∨
      ∃ path, .string path ∈ value.includes ∧ splice path = .error fault := by
  rw [← Results.failure?_eq_some_iff, failure?_ofValue] at h
  obtain ⟨payload, hpayload, h⟩ := List.exists_of_findSome?_eq_some h
  cases payload with
  | string path => exact .inr ⟨path, hpayload, Results.failure?_eq_some_iff.1 h⟩
  | _ => exact .inl (Option.some.inj h).symm

mutual
/-- What replacing the includes of a value yields is an unfolding if the included layers are. -/
theorem unfolds_of_ofValue {sources : Sources}
    (hsplice : ∀ path layer, splice path = .ok layer → ∃ target value,
      sources.canonical (resolve current path) = .ok target ∧
        sources.value? target = some value ∧ Unfolds sources target value layer)
    {value : Value} {layer : Json} (h : ofValue splice current value = .ok layer) :
    Unfolds sources current value layer := by
  cases value with
  | null =>
    obtain rfl := Except.ok.inj h
    exact .null
  | bool b =>
    obtain rfl := Except.ok.inj h
    exact .bool
  | number n =>
    obtain rfl := Except.ok.inj h
    exact .number
  | string s =>
    obtain rfl := Except.ok.inj h
    exact .string
  | sequence items =>
    obtain ⟨layers, hitems, h⟩ := Results.bind_eq_ok_iff.1 h
    obtain rfl := Except.ok.inj h
    exact .sequence (itemsUnfold_of_ofItems hsplice hitems)
  | mapping entries =>
    obtain ⟨named, hentries, h⟩ := Results.bind_eq_ok_iff.1 h
    obtain rfl := Except.ok.inj h
    rw [Json.objectOf_eq]
    exact .mapping (entriesUnfold_of_ofEntries hsplice hentries) (merges_ofList named)
  | tagged tag value =>
    unfold ofValue at h
    split at h
    next htag =>
      subst htag
      split at h
      next path =>
        obtain ⟨target, value, hcanonical, hvalue, hunfolds⟩ := hsplice path layer h
        exact .included hcanonical hvalue hunfolds
      next => cases h
    next htag => exact .tagged htag (unfolds_of_ofValue hsplice h)
/-- What replacing the includes of items yields is an unfolding. -/
theorem itemsUnfold_of_ofItems {sources : Sources}
    (hsplice : ∀ path layer, splice path = .ok layer → ∃ target value,
      sources.canonical (resolve current path) = .ok target ∧
        sources.value? target = some value ∧ Unfolds sources target value layer)
    {items : List Value} {layers : List Json} (h : ofItems splice current items = .ok layers) :
    ItemsUnfold sources current items layers := by
  cases items with
  | nil =>
    obtain rfl := Except.ok.inj h
    exact .nil
  | cons item rest =>
    obtain ⟨layer, hitem, h⟩ := Results.bind_eq_ok_iff.1 h
    obtain ⟨layers, hrest, h⟩ := Results.bind_eq_ok_iff.1 h
    obtain rfl := Except.ok.inj h
    exact .cons (unfolds_of_ofValue hsplice hitem) (itemsUnfold_of_ofItems hsplice hrest)
/-- What replacing the includes of entries yields is an unfolding. -/
theorem entriesUnfold_of_ofEntries {sources : Sources}
    (hsplice : ∀ path layer, splice path = .ok layer → ∃ target value,
      sources.canonical (resolve current path) = .ok target ∧
        sources.value? target = some value ∧ Unfolds sources target value layer)
    {entries : List (Value × Value)} {named : List (String × Json)}
    (h : ofEntries splice current entries = .ok named) :
    EntriesUnfold sources current entries named := by
  cases entries with
  | nil =>
    obtain rfl := Except.ok.inj h
    exact .nil
  | cons entry rest =>
    obtain ⟨key, value⟩ := entry
    obtain ⟨layer, hvalue, h⟩ := Results.bind_eq_ok_iff.1 h
    obtain ⟨named, hrest, h⟩ := Results.bind_eq_ok_iff.1 h
    obtain rfl := Except.ok.inj h
    exact .cons (unfolds_of_ofValue hsplice hvalue) (entriesUnfold_of_ofEntries hsplice hrest)
end

end Splice

end SignalSchema.Layer
