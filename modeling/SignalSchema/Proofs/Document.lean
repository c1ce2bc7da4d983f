import Mathlib.Logic.Relation
import SignalSchema.Document
import SignalSchema.Proofs.Sorting

/-!
# Documents as graphs

A document is read as a graph: its objects, and for each of them the objects that its fields
lead to through any number of wrappers. This graph knows nothing of positions, marks or the
order of types; what a schema says about its own graph is compared with it. Where the order of
types matters, it is that of their names (`KeyedByName.ascending`).
-/

namespace SignalSchema

/-- The names of the fields of an object or an input type. -/
def TypeBody.fieldNames : TypeBody → List String
  | object fields => fields.map (·.name)
  | input fields => fields.map (·.name)
  | _ => []

/-- The names of the arguments at each field of an object. -/
def TypeBody.argumentNames : TypeBody → List (List String)
  | object fields => fields.map fun f => f.arguments.map (·.name)
  | _ => []

namespace TypeDef

/-- The name and the fields of an input type, absent for a definition of another kind. -/
def inputFields? (definition : TypeDef) : Option (String × List InputValueDef) :=
  match definition.body with
  | .input fields => some (definition.name, fields)
  | _ => none

/-- The name and the fields of an object, absent for a definition of another kind. -/
def objectFields? (definition : TypeDef) : Option (String × List FieldDef) :=
  match definition.body with
  | .object fields => some (definition.name, fields)
  | _ => none

variable {definition : TypeDef} {name : String}

/-- A definition lists the fields of an input type exactly when it is one. -/
theorem inputFields?_eq_some_iff {fields : List InputValueDef} :
    definition.inputFields? = some (name, fields) ↔
      definition.name = name ∧ definition.body = .input fields := by
  unfold inputFields?
  cases definition.body <;> simp

/-- A definition lists the fields of an object exactly when it is one. -/
theorem objectFields?_eq_some_iff {fields : List FieldDef} :
    definition.objectFields? = some (name, fields) ↔
      definition.name = name ∧ definition.body = .object fields := by
  unfold objectFields?
  cases definition.body <;> simp

end TypeDef

namespace SchemaDocument

variable {document : SchemaDocument} {name : String} {definition : TypeDef}

/-- Whether the document declares a type under a name. -/
def declares (document : SchemaDocument) (name : String) : Bool :=
  document.types.contains name

/-- The input types of a document with their fields, in ascending order of their names. -/
def inputs (document : SchemaDocument) : List (String × List InputValueDef) :=
  document.sortedTypes.filterMap TypeDef.inputFields?

/-- The objects of a document with their fields, in ascending order of their names. -/
def objects (document : SchemaDocument) : List (String × List FieldDef) :=
  document.sortedTypes.filterMap TypeDef.objectFields?

/-- Whether no type declares two fields of one name. -/
def DistinctFields (document : SchemaDocument) : Prop :=
  ∀ definition ∈ document.types.values, definition.body.fieldNames.Nodup

/-- Whether no field of an object declares two arguments of one name. -/
def DistinctArguments (document : SchemaDocument) : Prop :=
  ∀ definition ∈ document.types.values, ∀ names ∈ definition.body.argumentNames, names.Nodup

/-- The document declares an object with the given fields under a name. -/
def DeclaresObject (document : SchemaDocument) (name : String) (fields : List FieldDef) : Prop :=
  ∃ definition, document.get? name = some definition ∧ definition.body = .object fields

/-- There is an object of the given name. -/
def HasObject (document : SchemaDocument) (name : String) : Prop :=
  ∃ fields, document.DeclaresObject name fields

/-- A field of the object `a` has the object `b` as its type, behind any wrappers. -/
def FieldLeads (document : SchemaDocument) (a b : String) : Prop :=
  ∃ fields, document.DeclaresObject a fields ∧ (∃ f ∈ fields, f.type.name = b) ∧
    document.HasObject b

/-- A field of some object holds a list, at any depth, of the object `b`. -/
def HeldInList (document : SchemaDocument) (b : String) : Prop :=
  ∃ a fields, document.DeclaresObject a fields ∧
    (∃ f ∈ fields, f.type.isList = true ∧ f.type.name = b) ∧ document.HasObject b

/-- Sorting the definitions keeps all of them and adds none. -/
theorem mem_sortedTypes : definition ∈ document.sortedTypes ↔
    definition ∈ document.types.values :=
  List.mem_mergeSort

/-- In a document with definitions under their own names, the names are distinct. -/
theorem KeyedByName.nodup_values (h : document.KeyedByName) :
    (document.types.values.map (·.name)).Nodup := by
  have hkeys : document.types.values.map (·.name) = document.types.entries.map Prod.fst := by
    rw [Table.values, List.map_map]
    exact List.map_congr_left h
  rw [hkeys]
  exact document.types.nodup

/-- In a document with definitions under their own names, the sorted names are distinct. -/
theorem KeyedByName.nodup_names (h : document.KeyedByName) :
    (document.sortedTypes.map (·.name)).Nodup :=
  ((List.mergeSort_perm _ _).map _).nodup_iff.2 h.nodup_values

/-- In a document with definitions under their own names, the sorted names strictly ascend. -/
theorem KeyedByName.ascending (h : document.KeyedByName) :
    document.sortedTypes.Pairwise fun d d' => d.name < d'.name :=
  Sorting.pairwise_lt_mergeSort h.nodup_values

/-- In a document with definitions under their own names, a definition is found under its
name. -/
theorem KeyedByName.get?_eq_some_iff (h : document.KeyedByName) :
    document.get? name = some definition ↔
      definition ∈ document.types.values ∧ definition.name = name := by
  rw [get?, Table.get?_eq_some_iff, Table.values, List.mem_map]
  constructor
  · intro hmem
    exact ⟨⟨_, hmem, rfl⟩, h _ hmem⟩
  · rintro ⟨⟨⟨key, _⟩, hmem, rfl⟩, rfl⟩
    rwa [h _ hmem]

/-- In a document with definitions under their own names, the declared names are theirs. -/
theorem KeyedByName.declares_iff (h : document.KeyedByName) : document.declares name = true ↔
    ∃ definition ∈ document.types.values, definition.name = name := by
  rw [declares, Table.contains_eq_isSome_get?, Option.isSome_iff_exists]
  exact exists_congr fun _ => h.get?_eq_some_iff

/-- The fields that an object declares have distinct names where all types have such. -/
theorem DistinctFields.nodup {fields : List FieldDef} (h : document.DistinctFields)
    (hdeclares : document.DeclaresObject name fields) : (fields.map (·.name)).Nodup := by
  obtain ⟨d, hd, hbody⟩ := hdeclares
  have hmem : d ∈ document.types.values :=
    List.mem_map.2 ⟨_, Table.get?_eq_some_iff.1 hd, rfl⟩
  simpa [hbody, TypeBody.fieldNames] using h d hmem

/-- The fields that are listed for an object have distinct names where all types have such. -/
theorem DistinctFields.nodup_objects (h : document.DistinctFields) :
    ∀ declared ∈ document.objects, (declared.2.map (·.name)).Nodup := by
  rintro ⟨name, fields⟩ hmem
  obtain ⟨definition, hdefinition, hfields⟩ := List.mem_filterMap.1 hmem
  have hnodup := h definition (mem_sortedTypes.1 hdefinition)
  rwa [(TypeDef.objectFields?_eq_some_iff.1 hfields).2] at hnodup

/-- The fields that are listed for an input type have distinct names where all types have such. -/
theorem DistinctFields.nodup_inputs (h : document.DistinctFields) :
    ∀ declared ∈ document.inputs, (declared.2.map (·.name)).Nodup := by
  rintro ⟨name, fields⟩ hmem
  obtain ⟨definition, hdefinition, hfields⟩ := List.mem_filterMap.1 hmem
  have hnodup := h definition (mem_sortedTypes.1 hdefinition)
  rwa [(TypeDef.inputFields?_eq_some_iff.1 hfields).2] at hnodup

/-- The arguments of the fields of an object have distinct names where those of all fields have
such. -/
theorem DistinctArguments.nodup_objects (h : document.DistinctArguments) :
    ∀ declared ∈ document.objects, ∀ field ∈ declared.2,
      (field.arguments.map (·.name)).Nodup := by
  rintro ⟨name, fields⟩ hmem field hfield
  obtain ⟨definition, hdefinition, hfields⟩ := List.mem_filterMap.1 hmem
  have hnodup := h definition (mem_sortedTypes.1 hdefinition)
  rw [(TypeDef.objectFields?_eq_some_iff.1 hfields).2] at hnodup
  exact hnodup _ (List.mem_map_of_mem hfield)

end SchemaDocument

end SignalSchema
