import Mathlib
import SignalSchema.Proofs.Schema.Completed

/-!
# Well-formed schemas

Positions are handed out while types are registered, and they are used as indices from then on: by
the table of names, by the sections and by every reference of a field. `WellFormed` says that all of
them fit together and that the types hold what the document declares. Built schemas are well formed,
and they stay so however list items are marked (`wellFormed_of_build`).
-/

namespace SignalSchema

/-- The references of a type: of its fields, of their arguments and of its local attributes. -/
def NamedType.references : NamedType → List TypeRef
  | input t => t.fields.values.map (·.type)
  | object t =>
    (t.fields.values.flatMap fun f => f.type :: f.arguments.values.map (·.type)) ++
      (t.localAttributes.map Table.values).getD []
  | _ => []

namespace Schema

open Deploy (DirectiveMap)

variable {document : SchemaDocument} {directives : DirectiveMap} {base schema : Schema}
  {definition : TypeDef} {t : NamedType}

/-! ### Types and their definitions -/

/-- An entry for an input field, or for an argument, is that of a definition. -/
structure DescribesInput (schema : Schema) (definition : InputValueDef)
    (entry : String × InputField) : Prop where
  key : entry.1 = definition.name
  name : entry.2.name = definition.name
  /-- The target is the position of the innermost name. -/
  lookup : schema.lookup? definition.type.name = some entry.2.target
  unwrapped : entry.2.type.target = entry.2.target

/-- An entry for a field of an object is that of a definition. -/
structure DescribesField (schema : Schema) (definition : FieldDef) (entry : String × Field) :
    Prop where
  key : entry.1 = definition.name
  name : entry.2.name = definition.name
  /-- The target is the position of the innermost name. -/
  lookup : schema.lookup? definition.type.name = some entry.2.target
  unwrapped : entry.2.type.target = entry.2.target
  arguments : ∀ argument ∈ entry.2.arguments.entries,
    ∃ d ∈ definition.arguments, DescribesInput schema d argument

/-- A type holds what its definition declares, field by field in the order of declaration. -/
structure Describes (schema : Schema) (definition : TypeDef) (t : NamedType) : Prop where
  name : t.name = definition.name
  kind : definition.body.typeKind? = some t.kind
  inputFields : ∀ fields, t.inputFields? = some fields → ∃ defs, definition.body = .input defs ∧
    List.Forall₂ (DescribesInput schema) defs fields.entries
  fields : ∀ fields, t.fields? = some fields → ∃ defs, definition.body = .object defs ∧
    List.Forall₂ (DescribesField schema) defs fields.entries
  /-- A local attribute is a field with its type. -/
  localAttributes : ∀ attributes, t.localAttributes? = some attributes →
    ∀ e ∈ attributes.entries, ∃ fields, t.fields? = some fields ∧
      ∃ f, (e.1, f) ∈ fields.entries ∧ f.type = e.2

/-- A type without its marks holds as much as with them. -/
theorem describes_withoutMarks_iff :
    Describes schema definition t.withoutMarks ↔ Describes schema definition t := by
  constructor <;> rintro ⟨hname, hkind, hinput, hfields, hlocal⟩ <;>
    exact ⟨by simpa using hname, by simpa using hkind, by simpa using hinput,
      by simpa using hfields, by simpa using hlocal⟩

/-- An input field, or an argument, is entered as it is resolved. -/
theorem describesInput_of_resolvedInput (hlookup : schema.lookup? = base.lookup?) {parent : String}
    {d : InputValueDef} {f : InputField} (h : ResolvedInput base parent d f) :
    DescribesInput schema d (f.name, f) where
  key := h.name
  name := h.name
  lookup := hlookup ▸ h.lookup?_eq
  unwrapped := h.target.symm

/-- A field of an object is entered as it is resolved. -/
theorem describesField_of_resolvedField (hlookup : schema.lookup? = base.lookup?) {parent : String}
    {d : FieldDef} {f : Field} (h : ResolvedField base parent d f) :
    DescribesField schema d (f.name, f) where
  key := h.name
  name := h.name
  lookup := hlookup ▸ h.lookup?_eq
  unwrapped := h.target.symm
  arguments := by
    intro argument hargument
    obtain ⟨arguments, hresolved, htable⟩ := h.arguments
    rw [htable] at hargument
    obtain ⟨a, ha, rfl⟩ := List.mem_map.1 (Table.mem_of_mem_entries_ofList hargument)
    obtain ⟨d, hd, hda⟩ := Results.exists_of_mem_right hresolved ha
    exact ⟨d, List.mem_mergeSort.1 hd, describesInput_of_resolvedInput hlookup hda⟩

/-- The local attributes of an object are fields of it. -/
theorem exists_field_of_parentAttributes {fields : Table Field} {attributes : Table TypeRef}
    (h : parentAttributes fields = some attributes) {e : String × TypeRef}
    (he : e ∈ attributes.entries) : ∃ f, (e.1, f) ∈ fields.entries ∧ f.type = e.2 := by
  unfold parentAttributes at h
  dsimp only at h
  split at h
  · cases h
  · rw [← Option.some.inj h] at he
    obtain ⟨⟨name, f⟩, hf, hentry⟩ := List.mem_filterMap.1 (Table.mem_of_mem_entries_ofList he)
    dsimp only at hentry
    split at hentry
    · rw [← Option.some.inj hentry]
      exact ⟨f, hf, rfl⟩
    · cases hentry

/-- A completed input type holds the declared fields. -/
theorem forall₂_describesInput (hlookup : schema.lookup? = base.lookup?) {parent : String}
    {defs : List InputValueDef} {fields : List InputField} (hdistinct : (defs.map (·.name)).Nodup)
    (h : List.Forall₂ (ResolvedInput base parent) defs fields) (i : InputType) :
    List.Forall₂ (DescribesInput schema) defs (i.withFields fields).fields.entries := by
  refine (forall₂_entries_ofList h (fun _ _ hd => hd.name) hdistinct).imp ?_
  rintro d _ ⟨f, rfl, hd⟩
  exact describesInput_of_resolvedInput hlookup hd

/-- A completed object holds the declared fields. -/
theorem forall₂_describesField (hlookup : schema.lookup? = base.lookup?) {parent : String}
    {defs : List FieldDef} {fields : List Field} (hdistinct : (defs.map (·.name)).Nodup)
    (h : List.Forall₂ (ResolvedField base parent) defs fields) (o : ObjectType) :
    List.Forall₂ (DescribesField schema) defs (o.withFields fields).fields.entries := by
  refine (forall₂_entries_ofList h (fun _ _ hd => hd.name) hdistinct).imp ?_
  rintro d _ ⟨f, rfl, hd⟩
  exact describesField_of_resolvedField hlookup hd

/-- A completed type holds what its definition declares. -/
theorem describes_of_becomes (hlookup : schema.lookup? = base.lookup?)
    (hdistinct : definition.body.fieldNames.Nodup)
    (h : Becomes document directives base definition t) : Describes schema definition t := by
  have hname := h.name_eq
  have hkind := h.typeKind?_eq
  cases h with
  | plain registered hinput hobject =>
    cases t with
    | input i => exact absurd rfl hinput
    | object o => exact absurd rfl hobject
    | _ => exact ⟨hname, hkind, nofun, nofun, nofun⟩
  | @input i defs fields registered declared made =>
    rw [declared] at hdistinct
    refine ⟨hname, hkind, fun table htable => ⟨defs, declared, ?_⟩, nofun, nofun⟩
    obtain rfl := Option.some.inj htable
    exact forall₂_describesInput hlookup hdistinct (made.imp fun _ _ => inputField_eq_ok) i
  | @object o defs fields registered declared made =>
    rw [declared] at hdistinct
    refine ⟨hname, hkind, nofun, fun table htable => ⟨defs, declared, ?_⟩, ?_⟩
    · obtain rfl := Option.some.inj htable
      exact forall₂_describesField hlookup hdistinct (made.imp fun _ _ => objectField_eq_ok) o
    · intro attributes hattributes e he
      exact ⟨_, rfl, exists_field_of_parentAttributes hattributes he⟩

/-- Every reference of a type that holds what is declared leads to the position of a name. -/
theorem Describes.exists_lookup? (h : Describes schema definition t) {ref : TypeRef}
    (href : ref ∈ t.references) : ∃ name, schema.lookup? name = some ref.target := by
  cases t with
  | scalar => cases href
  | enum => cases href
  | input i =>
    obtain ⟨f, hf, rfl⟩ := List.mem_map.1 href
    obtain ⟨entry, hentry, rfl⟩ := List.mem_map.1 hf
    obtain ⟨defs, -, hdefs⟩ := h.inputFields _ rfl
    obtain ⟨d, -, hd⟩ := Results.exists_of_mem_right hdefs hentry
    exact ⟨d.type.name, hd.unwrapped ▸ hd.lookup⟩
  | object o =>
    obtain ⟨defs, -, hdefs⟩ := h.fields _ rfl
    rcases List.mem_append.1 href with href | href
    · obtain ⟨f, hf, href⟩ := List.mem_flatMap.1 href
      obtain ⟨entry, hentry, rfl⟩ := List.mem_map.1 hf
      obtain ⟨d, -, hd⟩ := Results.exists_of_mem_right hdefs hentry
      rcases List.mem_cons.1 href with rfl | href
      · exact ⟨d.type.name, hd.unwrapped ▸ hd.lookup⟩
      · obtain ⟨a, ha, rfl⟩ := List.mem_map.1 href
        obtain ⟨argument, hargument, rfl⟩ := List.mem_map.1 ha
        obtain ⟨d', -, hd'⟩ := hd.arguments argument hargument
        exact ⟨d'.type.name, hd'.unwrapped ▸ hd'.lookup⟩
    · obtain ⟨attributes, hattributes⟩ : ∃ attributes, o.localAttributes = some attributes := by
        cases hlocal : o.localAttributes with
        | none => simp [hlocal] at href
        | some attributes => exact ⟨attributes, rfl⟩
      rw [hattributes] at href
      obtain ⟨e, he, rfl⟩ := List.mem_map.1 href
      obtain ⟨fields, hfields, f, hf, htype⟩ := h.localAttributes attributes hattributes e he
      obtain rfl := Option.some.inj hfields
      obtain ⟨d, -, hd⟩ := Results.exists_of_mem_right hdefs hf
      exact ⟨d.type.name, htype ▸ hd.unwrapped ▸ hd.lookup⟩

/-! ### The invariant -/

/-- The names, the sections and the references of a schema fit its positions, and its types hold
what the document declares. -/
structure WellFormed (document : SchemaDocument) (schema : Schema) : Prop where
  /-- The types ascend by their names. -/
  ascending : schema.types.Pairwise fun t t' => t.name < t'.name
  /-- Every declared name has a position of its own, and every position has a name. -/
  positions : Set.BijOn schema.lookup? {name | document.declares name = true}
    (some '' Set.Iio schema.size)
  /-- A name that is not declared has no position. -/
  undeclared : ∀ name, document.declares name = false → schema.lookup? name = none
  /-- The type at the position of a name has that name. -/
  named : ∀ name id, schema.lookup? name = some id → ∃ t, schema.get? id = some t ∧ t.name = name
  /-- The position of a type is in the section of its kind and in no other. -/
  sections : ∀ kind id, id ∈ schema.sections.ofKind kind ↔
    ∃ t, schema.get? id = some t ∧ t.kind = kind
  /-- The types of a section ascend by their names. -/
  ascendingSections : ∀ kind, (schema.sections.ofKind kind).Pairwise fun id id' =>
    ∃ t t', schema.get? id = some t ∧ schema.get? id' = some t' ∧ t.name < t'.name
  /-- The sections together are as long as the schema. -/
  total : schema.sections.scalars.length + schema.sections.enums.length +
    schema.sections.inputs.length + schema.sections.objects.length = schema.size
  /-- No reference leads out of the schema. -/
  references : ∀ t ∈ schema.types, ∀ ref ∈ t.references, ref.target < schema.size
  /-- The types are those of the definitions by their names, with all that these declare. -/
  types : List.Forall₂ (Describes schema) document.sortedTypes schema.types

namespace CompletedFrom

variable (h : CompletedFrom document directives base schema)

include h

/-- Completed types hold what their definitions declare. -/
theorem forall₂_describes (hdistinct : document.DistinctFields) :
    List.Forall₂ (Describes schema) document.sortedTypes schema.types := by
  have hmem := (List.forall₂_and_left (p := (· ∈ document.sortedTypes)) _ _).2
    ⟨fun _ hd => hd, h.types⟩
  rw [List.forall₂_map_right_iff] at hmem
  refine hmem.imp ?_
  rintro d t ⟨hd, hbecomes⟩
  exact describes_withoutMarks_iff.1 (describes_of_becomes (funext h.lookup?_eq)
    (hdistinct d (SchemaDocument.mem_sortedTypes.1 hd)) hbecomes)

variable (hkeyed : document.KeyedByName)

include hkeyed

/-- Completed types ascend by their names. -/
theorem ascending : schema.types.Pairwise fun t t' => t.name < t'.name := by
  have hnames := List.pairwise_map.2 hkeyed.ascending
  rw [← h.map_name_types] at hnames
  exact List.pairwise_map.1 hnames

/-- The position of a name is one of the schema. -/
theorem lt_size_of_lookup? {name : String} {id : TypeId} (hid : schema.lookup? name = some id) :
    id < schema.size := by
  obtain ⟨t, ht, -⟩ := Option.map_eq_some_iff.1 ((h.lookup?_eq_some_iff hkeyed).1 hid)
  exact (List.getElem?_eq_some_iff.1 ht).1

/-- The declared names and the positions determine each other. -/
theorem bijOn_lookup? : Set.BijOn schema.lookup? {name | document.declares name = true}
    (some '' Set.Iio schema.size) := by
  refine ⟨?_, ?_, ?_⟩
  · intro name hname
    rw [Set.mem_ofPred_eq, ← h.isSome_lookup?_eq hkeyed] at hname
    obtain ⟨id, hid⟩ := Option.isSome_iff_exists.1 hname
    exact ⟨id, h.lt_size_of_lookup? hkeyed hid, hid.symm⟩
  · intro name hname name' _ heq
    rw [Set.mem_ofPred_eq, ← h.isSome_lookup?_eq hkeyed] at hname
    obtain ⟨id, hid⟩ := Option.isSome_iff_exists.1 hname
    have hid' : schema.lookup? name' = some id := heq ▸ hid
    rw [h.lookup?_eq_some_iff hkeyed] at hid hid'
    exact Option.some.inj (hid.symm.trans hid')
  · rintro _ ⟨id, hid, rfl⟩
    obtain ⟨t, ht⟩ : ∃ t, schema.get? id = some t := ⟨_, List.getElem?_eq_getElem hid⟩
    have hname : schema.lookup? t.name = some id := by
      rw [h.lookup?_eq_some_iff hkeyed, nameAt?, ht, Option.map_some]
    refine ⟨t.name, ?_, hname⟩
    rw [Set.mem_ofPred_eq, ← h.isSome_lookup?_eq hkeyed, hname, Option.isSome_some]

/-- The types of a section of completed types ascend by their names. -/
theorem ascending_sections (kind : TypeKind) :
    (schema.sections.ofKind kind).Pairwise fun id id' =>
      ∃ t t', schema.get? id = some t ∧ schema.get? id' = some t' ∧ t.name < t'.name := by
  have htype : ∀ id ∈ schema.sections.ofKind kind, ∃ t, schema.get? id = some t := by
    intro id hid
    obtain ⟨t, ht, -⟩ := Option.map_eq_some_iff.1 ((h.sectioned.mem_iff kind id).1 hid)
    exact ⟨t, ht⟩
  refine (h.sectioned.ascending kind).imp_of_mem ?_
  intro id id' hid hid' hlt
  obtain ⟨t, ht⟩ := htype id hid
  obtain ⟨t', ht'⟩ := htype id' hid'
  refine ⟨t, t', ht, ht', ?_⟩
  obtain ⟨hbound, rfl⟩ := List.getElem?_eq_some_iff.1 ht
  obtain ⟨hbound', rfl⟩ := List.getElem?_eq_some_iff.1 ht'
  exact List.pairwise_iff_getElem.1 (h.ascending hkeyed) id id' hbound hbound' hlt

/-- A schema of completed types is well formed. -/
theorem wellFormed (hdistinct : document.DistinctFields) : WellFormed document schema where
  ascending := h.ascending hkeyed
  positions := h.bijOn_lookup? hkeyed
  undeclared name hname := by
    rw [← h.isSome_lookup?_eq hkeyed] at hname
    simpa using hname
  named name id hid := Option.map_eq_some_iff.1 ((h.lookup?_eq_some_iff hkeyed).1 hid)
  sections kind id := by rw [h.sectioned.mem_iff, Option.map_eq_some_iff]
  ascendingSections := h.ascending_sections hkeyed
  total := h.sectioned.total
  references t ht ref href := by
    obtain ⟨d, -, hd⟩ := Results.exists_of_mem_right (h.forall₂_describes hdistinct) ht
    obtain ⟨name, hname⟩ := hd.exists_lookup? href
    exact h.lt_size_of_lookup? hkeyed hname
  types := h.forall₂_describes hdistinct

end CompletedFrom

/-- Where definitions stand under their own names and fields have distinct names, a built schema is
well formed, and so is every schema that results from marking list items in it. -/
theorem wellFormed_of_build (hkeyed : document.KeyedByName) (hdistinct : document.DistinctFields)
    (h : build document directives = .ok schema) (marks : List TypeId) :
    WellFormed document (marks.foldl markListItem schema) := by
  obtain ⟨base, hbase⟩ := exists_completedFrom hkeyed h
  exact (hbase.foldl_markListItem marks).wellFormed hkeyed hdistinct

/-- An object `Q` that holds a list of itself, with an argument of the input type `I`, which refers
to itself as well. -/
def selfDocument : SchemaDocument where
  types := Table.ofList
    [("Q", ⟨"Q", none, [], .object
        [⟨"a", none, .list (.named "Q"), [⟨"i", none, .nonNull (.named "I"), []⟩], []⟩]⟩),
      ("I", ⟨"I", none, [], .input [⟨"i", none, .named "I", []⟩]⟩)]
  query := some "Q"
  mutation := none
  subscription := none

/-- A layer that makes the list an attribute of the parent. -/
def selfDirectives : DirectiveMap :=
  Table.ofList [("Q_A", .parentAttribute "Q_A" none)]

/-- The references are those of the field, of its argument and of the local attribute. -/
theorem wellFormed_selfDocument : selfDocument.KeyedByName ∧ selfDocument.DistinctFields ∧
    ∃ schema, build selfDocument selfDirectives = .ok schema ∧
      schema.types.map NamedType.references =
        [[.named 0], [.list (.named 1), .nonNull (.named 0), .list (.named 1)]] ∧
      WellFormed selfDocument ([0, 1].foldl markListItem schema) := by
  have hkeyed : selfDocument.KeyedByName := by
    unfold SchemaDocument.KeyedByName
    decide
  have hdistinct : selfDocument.DistinctFields := by
    unfold SchemaDocument.DistinctFields
    decide
  have hreferences : (build selfDocument selfDirectives).toOption.map
      (fun s => s.types.map NamedType.references) =
        some [[.named 0], [.list (.named 1), .nonNull (.named 0), .list (.named 1)]] := by cbv
  cases hbuild : build selfDocument selfDirectives with
  | error fault => simp [hbuild, Except.toOption] at hreferences
  | ok schema =>
    simp only [hbuild, Except.toOption, Option.map_some, Option.some.injEq] at hreferences
    exact ⟨hkeyed, hdistinct, schema, rfl, hreferences,
      wellFormed_of_build hkeyed hdistinct hbuild [0, 1]⟩

end Schema

end SignalSchema
