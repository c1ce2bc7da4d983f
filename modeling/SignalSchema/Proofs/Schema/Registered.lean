import SignalSchema.Proofs.Document
import SignalSchema.Proofs.Results
import SignalSchema.Proofs.Schema.Marking
import SignalSchema.Schema.Builder

/-!
# Registered types

The first step of building a schema gives every definition of a document a position, in the
order of names. When definitions stand under their own names, names and positions determine each
other (`lookup?_eq_some_iff`), the objects at the positions are the objects of the document
(`isObject_iff_hasObject`), and none of them has fields or marks yet.
-/

namespace SignalSchema

/-- The input type that a type is. -/
def NamedType.input? : NamedType → Option InputType
  | input t => some t
  | _ => none

/-- The fields of an input type, absent for what is none. -/
def NamedType.inputFields? (t : NamedType) : Option (Table InputField) :=
  t.input?.map (·.fields)

/-- A type has the name of the object that it is. -/
theorem NamedType.name_of_object? {t : NamedType} {o : ObjectType} (h : t.object? = some o) :
    t.name = o.name := by
  cases t with
  | object => exact congrArg ObjectType.name (Option.some.inj h)
  | _ => cases h

/-- The kind of the types that a definition becomes; interfaces and unions become none. -/
def TypeBody.typeKind? : TypeBody → Option TypeKind
  | scalar => some .scalar
  | enum _ => some .enum
  | input _ => some .input
  | object _ => some .object
  | interface | union => none

namespace Schema

open Deploy (Directive DirectiveMap)

variable {document : SchemaDocument} {directives : DirectiveMap} {definition : TypeDef}
  {t : NamedType} {base : Schema} {id : TypeId} {name : String}

/-- The name of the type at a position. -/
def nameAt? (schema : Schema) (id : TypeId) : Option String :=
  (schema.get? id).map NamedType.name

/-! ### One definition -/

/-- A registered type has the name of its definition. -/
theorem name_of_register (h : register document directives definition = .ok t) :
    t.name = definition.name := by
  unfold register at h
  split at h <;> first | (obtain rfl := Except.ok.inj h; rfl) | cases h

/-- A registered type has the kind of its definition. -/
theorem typeKind?_of_register (h : register document directives definition = .ok t) :
    definition.body.typeKind? = some t.kind := by
  unfold register at h
  split at h <;> first | (obtain rfl := Except.ok.inj h; rw [‹definition.body = _›]; rfl) | cases h

/-- A registered input type belongs to a definition of one. -/
theorem exists_input_body_of_register {i : InputType}
    (h : register document directives definition = .ok (.input i)) :
    ∃ defs, definition.body = .input defs := by
  have hkind := typeKind?_of_register h
  cases hbody : definition.body with
  | input defs => exact ⟨defs, rfl⟩
  | _ => simp [hbody, TypeBody.typeKind?, NamedType.kind] at hkind

/-- A registered object belongs to a definition of one. -/
theorem exists_object_body_of_register {o : ObjectType}
    (h : register document directives definition = .ok (.object o)) :
    ∃ defs, definition.body = .object defs := by
  have hkind := typeKind?_of_register h
  cases hbody : definition.body with
  | object defs => exact ⟨defs, rfl⟩
  | _ => simp [hbody, TypeBody.typeKind?, NamedType.kind] at hkind

/-- A definition is registered unless it has no place in a schema. -/
theorem failure?_register (document : SchemaDocument) (directives : DirectiveMap)
    (definition : TypeDef) :
    Results.failure? (register document directives definition) =
      if definition.body.typeKind?.isSome then none
      else some (.unsupportedType definition.name definition.body.kind) := by
  unfold register
  split <;> (rw [‹definition.body = _›]; rfl)

/-- A registered type is an object exactly when its definition is one, and has no fields yet. -/
theorem fields?_of_register (h : register document directives definition = .ok t) :
    t.fields? =
      match definition.body with
      | .object _ => some Table.empty
      | _ => none := by
  unfold register at h
  split at h <;> first | (obtain rfl := Except.ok.inj h; simp [*]; rfl) | cases h

/-- A registered input type has no fields yet. -/
theorem inputFields?_of_register {fields : Table InputField}
    (h : register document directives definition = .ok t) (hfields : t.inputFields? = some fields) :
    fields = Table.empty := by
  unfold register at h
  split at h
  next => cases Except.ok.inj h; cases hfields
  next => cases Except.ok.inj h; cases hfields
  next => cases Except.ok.inj h; exact (Option.some.inj hfields).symm
  next => cases Except.ok.inj h; cases hfields
  next => cases h
  next => cases h

/-- A registered object has the directive at its own name. -/
theorem deploy_of_register_object {o : ObjectType}
    (h : register document directives definition = .ok (.object o)) :
    o.deploy = directives.get? o.name := by
  unfold register at h
  split at h <;> cases h
  rfl

/-- A registered input type has the directive at its own name, and is no list item. -/
theorem deploy_and_isListItem_of_register_input {i : InputType}
    (h : register document directives definition = .ok (.input i)) :
    i.deploy = directives.get? i.name ∧ i.isListItem = false := by
  unfold register at h
  split at h <;> cases h
  exact ⟨rfl, rfl⟩

/-- A registered type has no mark yet. -/
theorem isListItem_of_register (h : register document directives definition = .ok t) :
    t.isListItem = false := by
  unfold register at h
  split at h <;> first | (obtain rfl := Except.ok.inj h; rfl) | cases h

/-! ### Positions -/

/-- Types keep the order in which they are registered. -/
theorem types_foldl_push (types : List NamedType) (schema : Schema) :
    (types.foldl push schema).types = schema.types ++ types := by
  induction types generalizing schema with
  | nil => simp
  | cons t rest ih => rw [List.foldl_cons, ih, push, List.append_assoc, List.singleton_append]

/-- Names are entered one after the other, each with the position of its type. -/
theorem ids_foldl_push (types : List NamedType) (schema : Schema) :
    (types.foldl push schema).ids =
      ((types.zipIdx schema.size).map fun (t, id) => (t.name, id)).foldl
        (fun ids e => ids.insert e.1 e.2) schema.ids := by
  induction types generalizing schema with
  | nil => rfl
  | cons t rest ih =>
    have hsize : (schema.push t).size = schema.size + 1 := by simp [push, size]
    rw [List.foldl_cons, ih, hsize, List.zipIdx_cons, List.map_cons, List.foldl_cons, push]

/-- A further position is entered in the section of its kind and in no other. -/
theorem Sections.ofKind_push (sections : Sections) (id : TypeId) (kind kind' : TypeKind) :
    (sections.push id kind).ofKind kind' =
      sections.ofKind kind' ++ if kind = kind' then [id] else [] := by
  cases kind <;> cases kind' <;> simp [Sections.push, Sections.ofKind]

/-- The sections of a schema list the positions of the types of their kinds in order. -/
structure Sectioned (schema : Schema) : Prop where
  mem_iff : ∀ kind id, id ∈ schema.sections.ofKind kind ↔
    (schema.get? id).map NamedType.kind = some kind
  ascending : ∀ kind, (schema.sections.ofKind kind).Pairwise (· < ·)
  total : schema.sections.scalars.length + schema.sections.enums.length +
    schema.sections.inputs.length + schema.sections.objects.length = schema.size

/-- The schema without types has nothing in its sections. -/
theorem sectioned_empty : Sectioned empty := by
  constructor
  · intro kind id
    cases kind <;> simp [empty, Sections.empty, Sections.ofKind, get?]
  · intro kind
    cases kind <;> exact List.Pairwise.nil
  · rfl

/-- A further type comes to the end of its section. -/
theorem Sectioned.push {schema : Schema} (h : Sectioned schema) (t : NamedType) :
    Sectioned (schema.push t) := by
  -- a position in a section belongs to a type, so it comes before the new one
  have hbound : ∀ kind, ∀ id ∈ schema.sections.ofKind kind, id < schema.size := by
    intro kind id hid
    obtain ⟨t, ht, -⟩ := Option.map_eq_some_iff.1 ((h.mem_iff kind id).1 hid)
    exact (List.getElem?_eq_some_iff.1 ht).1
  constructor
  · intro kind id
    rw [Schema.push, Sections.ofKind_push, List.mem_append, h.mem_iff, get?, get?]
    rcases Nat.lt_trichotomy id schema.types.length with hid | rfl | hid
    · rw [List.getElem?_append_left hid]
      simp [size, hid.ne]
    · simp [size]
    · have hnone : (schema.types ++ [t])[id]? = none := by
        rw [List.getElem?_eq_none_iff, List.length_append, List.length_singleton]
        exact hid
      rw [hnone, List.getElem?_eq_none hid.le]
      simp [size, hid.ne']
  · intro kind
    rw [Schema.push, Sections.ofKind_push, List.pairwise_append]
    refine ⟨h.ascending kind, ?_, ?_⟩
    · split
      · exact List.pairwise_singleton _ _
      · exact List.Pairwise.nil
    · intro id hid new hnew
      split at hnew
      · rw [List.mem_singleton.1 hnew]
        exact hbound kind id hid
      · cases hnew
  · have htotal := h.total
    rw [size] at htotal ⊢
    rw [Schema.push, List.length_append, ← htotal]
    cases t.kind <;> simp only [Sections.push, List.length_append, List.length_singleton] <;> omega

/-- What the sections list is decided by the kinds of the types. -/
theorem Sectioned.congr {s s' : Schema} (h : Sectioned s) (hsections : s'.sections = s.sections)
    (hkinds : s'.types.map NamedType.kind = s.types.map NamedType.kind) : Sectioned s' := by
  refine ⟨fun kind id => ?_, fun kind => hsections ▸ h.ascending kind, ?_⟩
  · rw [hsections, map_get?_eq_of_map_types hkinds]
    exact h.mem_iff kind id
  · rw [hsections, h.total, size, size]
    simpa using congrArg List.length hkinds.symm

/-- The sections are in order after all types were registered. -/
theorem Sectioned.foldl_push {schema : Schema} (h : Sectioned schema) (types : List NamedType) :
    Sectioned (types.foldl Schema.push schema) := by
  induction types generalizing schema with
  | nil => exact h
  | cons t rest ih => exact ih (h.push t)

/-! ### All definitions -/

/-- Registration takes the definitions in order and gives each type the next position. -/
theorem registerAll_eq_ok_iff : registerAll document directives = .ok base ↔
    List.Forall₂ (fun d t => register document directives d = .ok t)
      document.sortedTypes base.types ∧ base = base.types.foldl push empty := by
  unfold registerAll
  rw [Results.bind_eq_ok_iff]
  constructor
  · rintro ⟨types, htypes, h⟩
    obtain rfl := Except.ok.inj h
    rw [types_foldl_push, empty, List.nil_append]
    exact ⟨Results.mapM_eq_ok_iff.1 htypes, rfl⟩
  · rintro ⟨htypes, hbase⟩
    exact ⟨base.types, Results.mapM_eq_ok_iff.2 htypes, congrArg Except.ok hbase.symm⟩

/-- Registration enters every name with its position. -/
theorem ids_of_registerAll (h : registerAll document directives = .ok base) :
    base.ids = Table.ofList (base.types.zipIdx.map fun (t, id) => (t.name, id)) := by
  rw [(registerAll_eq_ok_iff.1 h).2, ids_foldl_push, types_foldl_push]
  rfl

/-- Registration enters every position in the section of its kind. -/
theorem sectioned_of_registerAll (h : registerAll document directives = .ok base) :
    Sectioned base := by
  rw [(registerAll_eq_ok_iff.1 h).2]
  exact sectioned_empty.foldl_push base.types

/-- The registered types belong to the definitions, which are found under their names. -/
theorem forall₂_register (hkeyed : document.KeyedByName)
    (h : registerAll document directives = .ok base) :
    List.Forall₂ (fun d t => document.get? d.name = some d ∧
      register document directives d = .ok t) document.sortedTypes base.types := by
  refine (List.forall₂_and_left (p := fun d => document.get? d.name = some d) _ _).2
    ⟨fun d hd => ?_, (registerAll_eq_ok_iff.1 h).1⟩
  exact hkeyed.get?_eq_some_iff.2 ⟨SchemaDocument.mem_sortedTypes.1 hd, rfl⟩

/-- Every position belongs to a definition. -/
theorem exists_definition (h : registerAll document directives = .ok base)
    (ht : base.get? id = some t) :
    ∃ d ∈ document.types.values, register document directives d = .ok t := by
  obtain ⟨d, hd, hr⟩ := Results.exists_of_mem_right (registerAll_eq_ok_iff.1 h).1
    (List.mem_of_getElem? ht)
  exact ⟨d, SchemaDocument.mem_sortedTypes.1 hd, hr⟩

/-- The registered types have the names of the definitions, in the same order. -/
theorem map_name_types (h : registerAll document directives = .ok base) :
    base.types.map NamedType.name = document.sortedTypes.map (·.name) :=
  (Results.map_eq_map (registerAll_eq_ok_iff.1 h).1 fun _ _ hr => (name_of_register hr).symm).symm

/-- Names and positions determine each other. -/
theorem lookup?_eq_some_iff (hkeyed : document.KeyedByName)
    (h : registerAll document directives = .ok base) :
    base.lookup? name = some id ↔ base.nameAt? id = some name := by
  have hnames : ((base.types.zipIdx.map fun (t, id) => (t.name, id)).map Prod.fst) =
      base.types.map NamedType.name := by
    conv_rhs => rw [← List.zipIdx_map_fst 0 base.types]
    rw [List.map_map, List.map_map]
    rfl
  have hnodup : ((base.types.zipIdx.map fun (t, id) => (t.name, id)).map Prod.fst).Nodup := by
    rw [hnames, map_name_types h]
    exact hkeyed.nodup_names
  rw [lookup?, ids_of_registerAll h, Table.get?_eq_some_iff,
    Table.entries_ofList hnodup, nameAt?, get?]
  simp only [List.mem_map, Prod.mk.injEq, Prod.exists, List.mk_mem_zipIdx_iff_getElem?,
    Option.map_eq_some_iff]
  constructor
  · rintro ⟨t, i, ht, hname, rfl⟩
    exact ⟨t, ht, hname⟩
  · rintro ⟨t, ht, hname⟩
    exact ⟨t, id, ht, hname, rfl⟩

/-- Every name of the document has a position. -/
theorem exists_lookup? (hkeyed : document.KeyedByName)
    (h : registerAll document directives = .ok base)
    (hd : document.get? name = some definition) : ∃ id, base.lookup? name = some id := by
  obtain ⟨hmem, hname⟩ := hkeyed.get?_eq_some_iff.1 hd
  have hmem' : name ∈ base.types.map NamedType.name := by
    rw [map_name_types h, ← hname]
    exact List.mem_map_of_mem (SchemaDocument.mem_sortedTypes.2 hmem)
  obtain ⟨id, hid⟩ := List.mem_iff_getElem?.1 hmem'
  refine ⟨id, (lookup?_eq_some_iff hkeyed h).2 ?_⟩
  rwa [nameAt?, get?, ← List.getElem?_map]

/-- The names with a position are those that the document declares. -/
theorem isSome_lookup?_eq (hkeyed : document.KeyedByName)
    (h : registerAll document directives = .ok base) (name : String) :
    (base.lookup? name).isSome = document.declares name := by
  rw [Bool.eq_iff_iff, Option.isSome_iff_exists, hkeyed.declares_iff]
  constructor
  · rintro ⟨id, hid⟩
    obtain ⟨t, ht, rfl⟩ := Option.map_eq_some_iff.1 ((lookup?_eq_some_iff hkeyed h).1 hid)
    obtain ⟨d, hd, hr⟩ := exists_definition h ht
    exact ⟨d, hd, (name_of_register hr).symm⟩
  · rintro ⟨d, hd, hname⟩
    exact exists_lookup? hkeyed h (hkeyed.get?_eq_some_iff.2 ⟨hd, hname⟩)

/-- The object at a position is the object of that name in the document. -/
theorem isObject_iff_hasObject (hkeyed : document.KeyedByName)
    (h : registerAll document directives = .ok base) (hname : base.nameAt? id = some name) :
    base.isObject id = true ↔ document.HasObject name := by
  obtain ⟨t, ht, rfl⟩ := Option.map_eq_some_iff.1 hname
  obtain ⟨d, hd, hr⟩ := exists_definition h ht
  have hget : document.get? t.name = some d :=
    hkeyed.get?_eq_some_iff.2 ⟨hd, (name_of_register hr).symm⟩
  have hfields : base.fieldsAt? id = t.fields? := by rw [fieldsAt?, ht, Option.bind_some]
  rw [isObject_eq_isSome_graph, graph, Option.isSome_map, hfields, fields?_of_register hr]
  constructor
  · intro hsome
    split at hsome
    next fields hbody => exact ⟨fields, d, hget, hbody⟩
    next => simp at hsome
  · rintro ⟨fields, d', hget', hbody⟩
    obtain rfl : d = d' := Option.some.inj (hget.symm.trans hget')
    rw [hbody]
    rfl

/-- No registered object leads anywhere. -/
theorem successors_of_registerAll (h : registerAll document directives = .ok base)
    (id : TypeId) : base.successors id = [] := by
  rw [successors_eq_getD_graph, graph, fieldsAt?]
  cases ht : base.get? id with
  | none => rfl
  | some t =>
    obtain ⟨d, -, hr⟩ := exists_definition h ht
    rw [Option.bind_some, fields?_of_register hr]
    split <;> rfl

/-- No registered object is marked. -/
theorem isListItem_of_registerAll (h : registerAll document directives = .ok base)
    (id : TypeId) : base.isListItem id = false := by
  rw [isListItem_eq_any]
  cases ht : base.get? id with
  | none => rfl
  | some t =>
    obtain ⟨d, -, hr⟩ := exists_definition h ht
    exact isListItem_of_register hr

end Schema

end SignalSchema
