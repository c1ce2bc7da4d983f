import SignalSchema.Proofs.Schema.Connecting
import SignalSchema.Proofs.Schema.Registered

/-!
# Built schemas

What a built schema consists of, in terms of the document and of the registered types. All
references are resolved by the registered types (`lookup?_of_resolveType`); the objects receive
the resolved fields of their declarations (`exists_supply`, `exists_declaration`); and
`BuiltFrom` collects what the three steps of building leave of it in the end.
-/

namespace SignalSchema.Schema

open Deploy (Directive DirectiveMap)

variable {document : SchemaDocument} {directives : DirectiveMap} {base filled schema : Schema}
  {supplies : List Supply} {supply : Supply} {id : TypeId} {name parent : String}

/-! ### Resolved fields -/

/-- A resolved reference leads to the position of the innermost name. -/
theorem lookup?_of_resolveType {type : TypeExpr} {ref : TypeRef}
    (h : resolveType schema parent type = .ok ref) :
    schema.lookup? type.name = some ref.target := by
  induction type generalizing ref with
  | named n =>
    unfold resolveType at h
    split at h
    next id hid =>
      obtain rfl := Except.ok.inj h
      exact hid
    next => cases h
  | nonNull inner ih =>
    obtain ⟨r, hr, rfl⟩ := Results.map_eq_ok_iff.1 h
    have hinner := ih hr
    exact hinner
  | list inner ih =>
    obtain ⟨r, hr, rfl⟩ := Results.map_eq_ok_iff.1 h
    have hinner := ih hr
    exact hinner

/-- A reference is resolved by the positions of the names and by nothing else. -/
theorem resolveType_congr {other : Schema}
    (h : ∀ name, other.lookup? name = schema.lookup? name) (parent : String) (type : TypeExpr) :
    resolveType other parent type = resolveType schema parent type := by
  induction type with
  | named n => rw [resolveType, resolveType, h]
  | nonNull inner ih => rw [resolveType, resolveType, ih]
  | list inner ih => rw [resolveType, resolveType, ih]

/-- What an input field, or an argument, takes from its definition. -/
structure ResolvedInput (schema : Schema) (parent : String) (definition : InputValueDef)
    (field : InputField) : Prop where
  name : field.name = definition.name
  type : resolveType schema parent definition.type = .ok field.type
  target : field.target = field.type.target
  isList : field.isList = definition.type.isList
  permissions : field.permissions = fieldPermissions schema definition.directives field.type

/-- What a field of an object takes from its definition. -/
structure ResolvedField (schema : Schema) (parent : String) (definition : FieldDef)
    (field : Field) : Prop where
  name : field.name = definition.name
  type : resolveType schema parent definition.type = .ok field.type
  target : field.target = field.type.target
  isList : field.isList = definition.type.isList
  permissions : field.permissions = fieldPermissions schema definition.directives field.type
  /-- The arguments are made of their definitions, by their names. -/
  arguments : ∃ arguments, List.Forall₂ (ResolvedInput schema parent)
      (definition.arguments.mergeSort fun a b => a.name ≤ b.name) arguments ∧
    field.arguments = Table.ofList (arguments.map fun a => (a.name, a))

/-- An input field is made of its definition and its resolved type. -/
theorem inputField_eq_ok {above : String} {definition : InputValueDef} {field : InputField}
    (h : inputField schema directives above parent definition = .ok field) :
    ResolvedInput schema parent definition field := by
  obtain ⟨type, htype, h⟩ := Results.bind_eq_ok_iff.1 h
  obtain rfl := Except.ok.inj h
  exact ⟨rfl, htype, rfl, rfl, rfl⟩

/-- A field of an object is made of its definition and its resolved type. -/
theorem objectField_eq_ok {definition : FieldDef} {field : Field}
    (h : objectField schema directives parent definition = .ok field) :
    ResolvedField schema parent definition field := by
  obtain ⟨type, htype, h⟩ := Results.bind_eq_ok_iff.1 h
  obtain ⟨arguments, harguments, h⟩ := Results.bind_eq_ok_iff.1 h
  obtain rfl := Except.ok.inj h
  exact ⟨rfl, htype, rfl, rfl, rfl, arguments,
    (Results.mapM_eq_ok_iff.1 harguments).imp fun _ _ => inputField_eq_ok, rfl⟩

/-- The target of an input field is the position of the innermost name. -/
theorem ResolvedInput.lookup?_eq {definition : InputValueDef} {field : InputField}
    (h : ResolvedInput schema parent definition field) :
    schema.lookup? definition.type.name = some field.target := by
  rw [h.target]
  exact lookup?_of_resolveType h.type

/-- The target of a field is the position of the innermost name. -/
theorem ResolvedField.lookup?_eq {definition : FieldDef} {field : Field}
    (h : ResolvedField schema parent definition field) :
    schema.lookup? definition.type.name = some field.target := by
  rw [h.target]
  exact lookup?_of_resolveType h.type

/-- Values with distinct names are listed in a table in the order of what they are made of. -/
theorem forall₂_entries_ofList {δ φ : Type} {r : δ → φ → Prop} {made : δ → String}
    {name : φ → String} {defs : List δ} {values : List φ} (h : List.Forall₂ r defs values)
    (hname : ∀ d x, r d x → name x = made d) (hdistinct : (defs.map made).Nodup) :
    List.Forall₂ (fun d e => ∃ x, e = (name x, x) ∧ r d x) defs
      (Table.ofList (values.map fun x => (name x, x))).entries := by
  have hnames : defs.map made = values.map name :=
    Results.map_eq_map h fun d x hd => (hname d x hd).symm
  rw [Table.entries_ofList_map (hnames ▸ hdistinct), List.forall₂_map_right_iff]
  exact h.imp fun d x hd => ⟨x, rfl, hd⟩

/-! ### Supplies -/

/-- The fields of an object are looked up in its declaration. -/
theorem objectFieldDefs?_eq_some_iff {defs : List FieldDef} :
    objectFieldDefs? document name = some defs ↔ document.DeclaresObject name defs := by
  unfold objectFieldDefs? SchemaDocument.DeclaresObject
  cases document.get? name with
  | none => simp
  | some d => cases hbody : d.body <;> simp [hbody]

/-- The fields of an input type are looked up in its declaration. -/
theorem inputFieldDefs?_eq_some_iff {defs : List InputValueDef} :
    inputFieldDefs? document name = some defs ↔
      ∃ definition, document.get? name = some definition ∧ definition.body = .input defs := by
  unfold inputFieldDefs?
  cases document.get? name with
  | none => simp
  | some d => cases hbody : d.body <;> simp [hbody]

/-- The declared objects are those at the positions of the schema. -/
theorem mem_declaredObjects_iff {defs : List FieldDef} :
    (id, name, defs) ∈ declaredObjects document base ↔
      base.isObject id = true ∧ base.nameAt? id = some name ∧
        document.DeclaresObject name defs := by
  unfold declaredObjects
  simp only [List.mem_filterMap, Prod.exists, List.mk_mem_zipIdx_iff_getElem?,
    ← objectFieldDefs?_eq_some_iff]
  unfold isObject objectAt? nameAt? get?
  constructor
  · rintro ⟨t, i, ht, h⟩
    cases t with
    | object o =>
      simp only [NamedType.object?, Option.bind_some, Option.map_eq_some_iff,
        Prod.mk.injEq] at h
      obtain ⟨defs, hdefs, rfl, rfl, rfl⟩ := h
      simp [ht, hdefs, NamedType.object?, NamedType.name]
    | _ => simp [NamedType.object?] at h
  · rintro ⟨hobject, hname, hdefs⟩
    obtain ⟨t, ht, rfl⟩ := Option.map_eq_some_iff.1 hname
    refine ⟨t, id, ht, ?_⟩
    cases t with
    | object o => simpa [NamedType.object?, NamedType.name] using hdefs
    | _ => simp [ht, NamedType.object?] at hobject

/-- No position is declared twice. -/
theorem nodup_declaredObjects (document : SchemaDocument) (base : Schema) :
    ((declaredObjects document base).map Prod.fst).Nodup := by
  have hpositions : base.types.zipIdx.Pairwise fun e e' => e.2 ≠ e'.2 := by
    have h : (base.types.zipIdx.map Prod.snd).Nodup := by
      rw [List.zipIdx_map_snd]
      exact List.nodup_range'
    exact List.pairwise_map.1 h
  unfold declaredObjects List.Nodup
  rw [List.pairwise_map, List.pairwise_filterMap]
  refine hpositions.imp ?_
  rintro ⟨t, i⟩ ⟨t', i'⟩ hne x hx x' hx'
  simp only [Option.bind_eq_some_iff, Option.map_eq_some_iff] at hx hx'
  obtain ⟨o, -, defs, -, rfl⟩ := hx
  obtain ⟨o', -, defs', -, rfl⟩ := hx'
  exact hne

/-- The name of an object with the fields that the document declares for it. -/
def declaredFields? (document : SchemaDocument) (t : NamedType) :
    Option (String × List FieldDef) :=
  t.object?.bind fun o => (objectFieldDefs? document o.name).map fun defs => (o.name, defs)

/-- The name of an input type with the fields that the document declares for it. -/
def declaredInputFields? (document : SchemaDocument) (t : NamedType) :
    Option (String × List InputValueDef) :=
  t.input?.bind fun i => (inputFieldDefs? document i.name).map fun defs => (i.name, defs)

/-- A registered object has the fields of its definition declared. -/
theorem declaredFields?_of_register {definition : TypeDef} {t : NamedType}
    (hget : document.get? definition.name = some definition)
    (hr : register document directives definition = .ok t) :
    declaredFields? document t = definition.objectFields? := by
  unfold register at hr
  split at hr <;> first
    | (obtain rfl := Except.ok.inj hr
       simp [TypeDef.objectFields?, declaredFields?, NamedType.object?, objectFieldDefs?, *])
    | cases hr

/-- A registered input type has the fields of its definition declared. -/
theorem declaredInputFields?_of_register {definition : TypeDef} {t : NamedType}
    (hget : document.get? definition.name = some definition)
    (hr : register document directives definition = .ok t) :
    declaredInputFields? document t = definition.inputFields? := by
  unfold register at hr
  split at hr <;> first
    | (obtain rfl := Except.ok.inj hr
       simp [TypeDef.inputFields?, declaredInputFields?, NamedType.input?, inputFieldDefs?, *])
    | cases hr

/-- The declared objects are the objects of the document, in the order of their names. -/
theorem map_snd_declaredObjects (hkeyed : document.KeyedByName)
    (h : registerAll document directives = .ok base) :
    (declaredObjects document base).map Prod.snd = document.objects := by
  -- positions do not matter for what is declared at them
  have htypes : (declaredObjects document base).map Prod.snd =
      base.types.filterMap (declaredFields? document) := by
    conv_rhs => rw [← List.zipIdx_map_fst 0 base.types, List.filterMap_map]
    rw [declaredObjects, List.map_filterMap]
    refine congrArg (List.filterMap · base.types.zipIdx) (funext fun ⟨t, id⟩ => ?_)
    cases t with
    | object o => simp [declaredFields?, NamedType.object?, Function.comp_def]
    | _ => rfl
  rw [htypes, SchemaDocument.objects]
  exact (Results.filterMap_eq_filterMap (forall₂_register hkeyed h) fun _ _ hr =>
    (declaredFields?_of_register hr.1 hr.2).symm).symm

/-- Every declared object is supplied with its resolved fields, and nothing else is. -/
theorem supplies_eq_ok_iff : Schema.supplies document directives base = .ok supplies ↔
    List.Forall₂ (fun declared supply => supply.id = declared.1 ∧
      declared.2.2.mapM (objectField base directives declared.2.1) = .ok supply.fields)
      (declaredObjects document base) supplies := by
  unfold Schema.supplies
  rw [Results.mapM_eq_ok_iff]
  constructor <;> refine fun h => h.imp ?_
  · rintro ⟨i, n, defs⟩ s hs
    obtain ⟨fields, hfields, hs⟩ := Results.bind_eq_ok_iff.1 hs
    obtain rfl := Except.ok.inj hs
    exact ⟨rfl, hfields⟩
  · rintro ⟨i, n, defs⟩ ⟨_, fields⟩ ⟨rfl, hfields⟩
    exact Results.bind_eq_ok_iff.2 ⟨fields, hfields, rfl⟩

/-- No object is supplied twice. -/
theorem nodup_supplies (h : Schema.supplies document directives base = .ok supplies) :
    (supplies.map (·.id)).Nodup := by
  have hids : (declaredObjects document base).map Prod.fst = supplies.map (·.id) :=
    Results.map_eq_map (supplies_eq_ok_iff.1 h) fun _ _ hs => hs.1.symm
  rw [← hids]
  exact nodup_declaredObjects document base

/-- A supplied object is declared with definitions that its fields are made of. -/
theorem exists_declaration (h : Schema.supplies document directives base = .ok supplies)
    (hmem : supply ∈ supplies) :
    ∃ name defs, base.isObject supply.id = true ∧ base.nameAt? supply.id = some name ∧
      document.DeclaresObject name defs ∧
      List.Forall₂ (fun d f => objectField base directives name d = .ok f)
        defs supply.fields := by
  obtain ⟨⟨id, name, defs⟩, hdeclared, hid, hfields⟩ :=
    Results.exists_of_mem_right (supplies_eq_ok_iff.1 h) hmem
  obtain ⟨hobject, hname, hdefs⟩ := mem_declaredObjects_iff.1 hdeclared
  exact ⟨name, defs, hid ▸ hobject, hid ▸ hname, hdefs, Results.mapM_eq_ok_iff.1 hfields⟩

/-- Every object with a declaration is supplied with fields made of it. -/
theorem exists_supply (h : Schema.supplies document directives base = .ok supplies)
    {defs : List FieldDef} (hobject : base.isObject id = true)
    (hname : base.nameAt? id = some name) (hdefs : document.DeclaresObject name defs) :
    ∃ supply ∈ supplies, supply.id = id ∧
      List.Forall₂ (fun d f => objectField base directives name d = .ok f)
        defs supply.fields := by
  obtain ⟨supply, hsupply, hid, hfields⟩ := Results.exists_of_mem_left
    (supplies_eq_ok_iff.1 h) (mem_declaredObjects_iff.2 ⟨hobject, hname, hdefs⟩)
  exact ⟨supply, hsupply, hid, Results.mapM_eq_ok_iff.1 hfields⟩

/-! ### Steps of building -/

/-- A schema is built in three steps: registering, filling the input types, and connecting the
objects. -/
theorem exists_of_build (h : build document directives = .ok schema) :
    ∃ base filled supplies, registerAll document directives = .ok base ∧
      fillInputs document directives base = .ok filled ∧
      Schema.supplies document directives base = .ok supplies ∧
      schema = supplies.foldl connect filled := by
  obtain ⟨base, hbase, h⟩ := Results.bind_eq_ok_iff.1 h
  obtain ⟨filled, hfilled, h⟩ := Results.bind_eq_ok_iff.1 h
  obtain ⟨supplies, hsupplies, h⟩ := Results.bind_eq_ok_iff.1 h
  exact ⟨base, filled, supplies, hbase, hfilled, hsupplies, (Except.ok.inj h).symm⟩

/-- A document with an interface or a union has no schema. -/
theorem exists_build_eq_error {definition : TypeDef} (hmem : definition ∈ document.types.values)
    (hbody : definition.body = .interface ∨ definition.body = .union)
    (directives : DirectiveMap) : ∃ e, build document directives = .error e := by
  cases hbuild : build document directives with
  | error e => exact ⟨e, rfl⟩
  | ok schema =>
    obtain ⟨base, filled, supplies, hbase, -⟩ := exists_of_build hbuild
    obtain ⟨t, -, hregister⟩ := Results.exists_of_mem_left (registerAll_eq_ok_iff.1 hbase).1
      (SchemaDocument.mem_sortedTypes.2 hmem)
    rw [register] at hregister
    rcases hbody with hbody | hbody
    · rw [hbody] at hregister
      cases hregister
    · rw [hbody] at hregister
      cases hregister

/-- Filling the input types is filling each of them. -/
theorem fillInputs_eq_ok (h : fillInputs document directives base = .ok filled) :
    List.Forall₂ (fun t t' =>
      (∃ i i', t = .input i ∧ fillInput document directives base i = .ok i' ∧ t' = .input i') ∨
        t.kind ≠ .input ∧ t' = t) base.types filled.types := by
  obtain ⟨types, htypes, h⟩ := Results.bind_eq_ok_iff.1 h
  obtain rfl := Except.ok.inj h
  refine (Results.mapM_eq_ok_iff.1 htypes).imp ?_
  rintro t t' ht
  split at ht
  next i =>
    obtain ⟨i', hi', rfl⟩ := Results.map_eq_ok_iff.1 ht
    exact Or.inl ⟨i, i', rfl, hi', rfl⟩
  next hne =>
    refine Or.inr ⟨?_, (Except.ok.inj ht).symm⟩
    intro hkind
    cases t with
    | input i => exact hne i rfl
    | _ => cases hkind

/-- A filled input type differs at most in its fields. -/
theorem fillInput_eq_ok {i i' : InputType}
    (h : fillInput document directives base i = .ok i') :
    (inputFieldDefs? document i.name = none ∧ i' = i) ∨
      ∃ defs fields, inputFieldDefs? document i.name = some defs ∧
        List.Forall₂ (fun d f => inputField base directives (inputPrefix i.name) i.name d = .ok f)
          defs fields ∧ i' = i.withFields fields := by
  unfold fillInput at h
  split at h
  next defs hdefs =>
    obtain ⟨fields, hfields, h⟩ := Results.bind_eq_ok_iff.1 h
    exact Or.inr ⟨defs, fields, hdefs, Results.mapM_eq_ok_iff.1 hfields,
      (Except.ok.inj h).symm⟩
  next hdefs => exact Or.inl ⟨hdefs, (Except.ok.inj h).symm⟩

/-- Filling the input types alters nothing but their fields. -/
theorem map_types_fillInputs {β : Type} {view : NamedType → β}
    (hfields : ∀ (i : InputType) (fields : List InputField),
      view (.input (i.withFields fields)) = view (.input i))
    (h : fillInputs document directives base = .ok filled) :
    filled.types.map view = base.types.map view := by
  refine (Results.map_eq_map (fillInputs_eq_ok h) fun t t' ht => ?_).symm
  rcases ht with ⟨i, i', rfl, hi', rfl⟩ | ⟨-, rfl⟩
  · rcases fillInput_eq_ok hi' with ⟨-, rfl⟩ | ⟨defs, fields, -, -, rfl⟩
    · rfl
    · exact (hfields i fields).symm
  · rfl

/-- Filling the input types leaves alone how types are found. -/
theorem index_fillInputs (h : fillInputs document directives base = .ok filled) :
    filled.index = base.index := by
  obtain ⟨types, -, h⟩ := Results.bind_eq_ok_iff.1 h
  rw [← Except.ok.inj h]
  rfl

/-- The input field is made of one that the document defines. -/
def MadeOfDefinition (document : SchemaDocument) (directives : DirectiveMap) (base : Schema)
    (field : InputField) : Prop :=
  ∃ name defs, inputFieldDefs? document name = some defs ∧
    ∃ d ∈ defs, inputField base directives (inputPrefix name) name d = .ok field

/-- The fields of filled input types are made of their definitions. -/
theorem madeOfDefinition_of_fillInputs (hbase : registerAll document directives = .ok base)
    (h : fillInputs document directives base = .ok filled) {t : NamedType}
    (ht : t ∈ filled.types) {fields : Table InputField} (hfields : t.inputFields? = some fields)
    {field : InputField} (hfield : field ∈ fields.values) :
    MadeOfDefinition document directives base field := by
  obtain ⟨t₀, ht₀, hfilled⟩ := Results.exists_of_mem_right (fillInputs_eq_ok h) ht
  -- a registered type has no fields, so that this one must have received them
  have hreceived : t₀.inputFields? ≠ some fields := by
    intro hsame
    obtain ⟨id, hid⟩ := List.mem_iff_getElem?.1 ht₀
    obtain ⟨d, -, hregister⟩ := exists_definition hbase hid
    rw [inputFields?_of_register hregister hsame] at hfield
    cases hfield
  rcases hfilled with ⟨i, i', rfl, hi', rfl⟩ | ⟨-, rfl⟩
  · rcases fillInput_eq_ok hi' with ⟨-, rfl⟩ | ⟨defs, made, hdefs, hmade, rfl⟩
    · exact absurd hfields hreceived
    · obtain rfl := Option.some.inj hfields
      obtain ⟨e, he, rfl⟩ := List.mem_map.1 hfield
      obtain ⟨f, hf, rfl⟩ := List.mem_map.1 (Table.mem_of_mem_entries_ofList he)
      obtain ⟨d, hd, hdf⟩ := Results.exists_of_mem_right hmade hf
      exact ⟨i.name, defs, hdefs, d, hd, hdf⟩
  · exact absurd hfields hreceived

/-! ### The result -/

/-- The input types in ascending order of their names. -/
def inputs (schema : Schema) : List InputType :=
  schema.types.filterMap NamedType.input?

/-- What a built schema has in common with the registered types and the supplied fields. -/
structure BuiltFrom (document : SchemaDocument) (directives : DirectiveMap) (base : Schema)
    (supplies : List Supply) (schema : Schema) : Prop where
  registered : registerAll document directives = .ok base
  supplied : Schema.supplies document directives base = .ok supplies
  /-- The types keep their names and positions. -/
  names : schema.types.map NamedType.name = base.types.map NamedType.name
  /-- The types keep their permissions. -/
  permissions : schema.types.map NamedType.permissions = base.types.map NamedType.permissions
  /-- Supplied objects have the fields that they were supplied with. -/
  fields : ∀ supply ∈ supplies, schema.fieldsAt? supply.id = some supply.table
  /-- All other types have as many fields as when they were registered. -/
  unsupplied : ∀ id, id ∉ supplies.map (·.id) → schema.fieldsAt? id = base.fieldsAt? id
  /-- The fields of input types are made of their definitions. -/
  inputs : ∀ t ∈ schema.inputs, ∀ field ∈ t.fields.values,
    MadeOfDefinition document directives base field
  /-- What is marked is what can be reached from the types that fields hold lists of. -/
  marked : Marked (supplies.flatMap Supply.held) schema

/-- Before objects receive fields nothing is marked, so no mark is missing. -/
theorem marked_of_isListItem_eq_false (h : ∀ id, schema.isListItem id = false) :
    Marked [] schema where
  closed a b ha := by simp [h] at ha
  seed a ha := absurd ha List.not_mem_nil
  sound b hb := by simp [h] at hb

/-- Every schema is built from registered types and supplied fields. -/
theorem exists_builtFrom (h : build document directives = .ok schema) :
    ∃ base supplies, BuiltFrom document directives base supplies schema := by
  obtain ⟨base, filled, supplies, hbase, hfilled, hsupplies, rfl⟩ := exists_of_build h
  have hfields : filled.fieldsAt? = base.fieldsAt? :=
    fieldsAt?_eq_of_map_types (map_types_fillInputs (fun _ _ => rfl) hfilled)
  have hmarks : filled.isListItem = base.isListItem :=
    isListItem_eq_of_map_types (map_types_fillInputs (fun _ _ => rfl) hfilled)
  have hnames : BlindToMarks NamedType.name := by
    constructor <;> intro t <;> cases t <;> rfl
  have hpermissions : BlindToMarks NamedType.permissions := by
    constructor <;> intro t <;> cases t <;> rfl
  have hinputs : BlindToMarks NamedType.inputFields? := by
    constructor <;> intro t <;> cases t <;> rfl
  refine ⟨base, supplies, hbase, hsupplies, ?_, ?_, ?_, ?_, ?_, ?_⟩
  · rw [map_types_foldl_connect hnames fun t _ => by cases t <;> rfl]
    exact map_types_fillInputs (fun _ _ => rfl) hfilled
  · rw [map_types_foldl_connect hpermissions fun t _ => by cases t <;> rfl]
    exact map_types_fillInputs (fun _ _ => rfl) hfilled
  · intro supply hsupply
    obtain ⟨name, defs, hobject, -⟩ := exists_declaration hsupplies hsupply
    rw [isObject_eq_isSome_graph, graph, Option.isSome_map] at hobject
    obtain ⟨fields, hbasefields⟩ := Option.isSome_iff_exists.1 hobject
    rw [fieldsAt?_eq_bind_bareAt?, bareAt?_foldl_connect_of_mem (nodup_supplies hsupplies) hsupply,
      bind_fields?_withFields, ← fieldsAt?_eq_bind_bareAt?, hfields, hbasefields, Option.map_some]
  · intro id hid
    rw [fieldsAt?_eq_bind_bareAt?, bareAt?_foldl_connect_of_notMem hid,
      ← fieldsAt?_eq_bind_bareAt?, hfields]
  · intro i hi field hfield
    obtain ⟨t, ht, hinput⟩ := List.mem_filterMap.1 hi
    have hmap := map_types_foldl_connect hinputs (fun t _ => by cases t <;> rfl) filled supplies
    have hmem : t.inputFields? ∈ filled.types.map NamedType.inputFields? :=
      hmap ▸ List.mem_map_of_mem ht
    obtain ⟨t', ht', heq⟩ := List.mem_map.1 hmem
    have hfields : t.inputFields? = some i.fields := by
      rw [NamedType.inputFields?, hinput, Option.map_some]
    exact madeOfDefinition_of_fillInputs hbase hfilled ht' (heq.trans hfields) hfield
  · have hmarked : Marked [] filled := by
      apply marked_of_isListItem_eq_false
      intro id
      rw [hmarks, isListItem_of_registerAll hbase]
    have hfresh : ∀ supply ∈ supplies, filled.successors supply.id = [] := by
      intro supply _
      rw [successors_eq_getD_graph, graph, hfields, ← graph, ← successors_eq_getD_graph,
        successors_of_registerAll hbase]
    simpa using hmarked.foldl_connect (nodup_supplies hsupplies) hfresh

namespace BuiltFrom

variable (h : BuiltFrom document directives base supplies schema)

include h

/-- The types keep their positions. -/
theorem nameAt?_eq (id : TypeId) : schema.nameAt? id = base.nameAt? id :=
  map_get?_eq_of_map_types h.names id

/-- The objects are the registered ones. -/
theorem isObject_eq (id : TypeId) : schema.isObject id = base.isObject id := by
  simp only [isObject_eq_isSome_graph, graph, Option.isSome_map]
  by_cases hid : id ∈ supplies.map (·.id)
  · obtain ⟨supply, hsupply, rfl⟩ := List.mem_map.1 hid
    obtain ⟨name, defs, hobject, -⟩ := exists_declaration h.supplied hsupply
    rw [isObject_eq_isSome_graph, graph, Option.isSome_map] at hobject
    rw [h.fields supply hsupply, hobject, Option.isSome_some]
  · rw [h.unsupplied id hid]

/-- The fields of an object are made of the definitions that the document has for its name. -/
theorem exists_fieldDef {t : ObjectType} (ht : t ∈ schema.objects) {field : Field}
    (hfield : field ∈ t.fields.values) :
    ∃ defs, document.DeclaresObject t.name defs ∧
      ∃ d ∈ defs, objectField base directives t.name d = .ok field := by
  obtain ⟨t', ht', hobject⟩ := List.mem_filterMap.1 ht
  obtain ⟨id, hid⟩ := List.mem_iff_getElem?.1 ht'
  have hat : schema.fieldsAt? id = some t.fields := by
    rw [fieldsAt?, get?, hid, Option.bind_some, NamedType.fields?, hobject, Option.map_some]
  by_cases hmem : id ∈ supplies.map (·.id)
  · obtain ⟨supply, hsupply, rfl⟩ := List.mem_map.1 hmem
    rw [h.fields supply hsupply] at hat
    rw [← Option.some.inj hat] at hfield
    obtain ⟨e, he, rfl⟩ := List.mem_map.1 hfield
    obtain ⟨f, hf, rfl⟩ := List.mem_map.1 (Table.mem_of_mem_entries_ofList he)
    obtain ⟨name, defs, -, hname, hdefs, hmade⟩ := exists_declaration h.supplied hsupply
    obtain ⟨d, hd, hdf⟩ := Results.exists_of_mem_right hmade hf
    have hown : schema.nameAt? supply.id = some t.name := by
      rw [nameAt?, get?, hid, Option.map_some, NamedType.name_of_object? hobject]
    obtain rfl : name = t.name := by
      rw [h.nameAt?_eq, hname] at hown
      exact Option.some.inj hown
    exact ⟨defs, hdefs, d, hd, hdf⟩
  · -- an object that was not supplied has no fields
    rw [h.unsupplied id hmem, fieldsAt?] at hat
    obtain ⟨t₀, ht₀, hfields⟩ := Option.bind_eq_some_iff.1 hat
    obtain ⟨d, -, hregister⟩ := exists_definition h.registered ht₀
    rw [fields?_of_register hregister] at hfields
    split at hfields
    · rw [← Option.some.inj hfields] at hfield
      cases hfield
    · cases hfields

end BuiltFrom

end SignalSchema.Schema
