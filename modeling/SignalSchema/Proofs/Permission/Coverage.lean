import Mathlib
import SignalSchema.Proofs.Permission.Numbering
import SignalSchema.Proofs.Schema.Built

/-!
# Permissions of a schema and their numbers

Two walks go over a document: one builds the schema and gives every field its permissions, and
one registers permissions. The second one reads the fields of objects and of input types and
nothing else, so that afterwards a permission has a number exactly when it had one before or such
a field declares it (`isSome_get?_update_iff`). A field of the schema may also have permissions
that it takes over from its type, and an argument has permissions of its own; those have numbers
only by the same condition (`isSome_get?_update_of_build`).
-/

namespace SignalSchema

variable {document : SchemaDocument} {schema : Schema} {permission : String}

/-! ### Declared permissions -/

/-- Some field of an object or of an input type of the document declares the permission. -/
def SchemaDocument.DeclaresAtField (document : SchemaDocument) (permission : String) : Prop :=
  ∃ definition ∈ document.types.values, ∃ directives ∈ definition.body.fieldDirectives,
    permission ∈ (Permissions.ofDirectives directives).getD []

/-- The permissions that are registered are those that fields declare. -/
theorem SchemaDocument.mem_declaredPermissions_iff :
    permission ∈ document.declaredPermissions ↔ document.DeclaresAtField permission := by
  simp only [declaredPermissions, List.mem_flatMap, mem_sortedTypes, DeclaresAtField]

/-- After a registry was updated, a permission has a number exactly when it had one before or a
field of the document declares it. -/
theorem Registry.isSome_get?_update_iff (registry : Registry) :
    ((registry.update document).get? permission).isSome = true ↔
      (registry.get? permission).isSome = true ∨ document.DeclaresAtField permission := by
  rw [update, isSome_get?_registerAll, SchemaDocument.mem_declaredPermissions_iff]

/-! ### Permissions of fields -/

namespace Schema

open Deploy (DirectiveMap)

variable {directives : DirectiveMap} {base : Schema} {supplies : List Supply}

/-- What the type at a reference hands on: its permissions if there are any, and only through the
bare name. -/
def handedOn? (schema : Schema) : TypeRef → Option (List String)
  | .named id => ((schema.get? id).bind NamedType.permissions).filter (· ≠ [])
  | _ => none

/-- The permissions of a field are its own, followed by what its type hands on. -/
theorem fieldPermissions_eq_merge (schema : Schema) (uses : List DirectiveUse) (type : TypeRef) :
    fieldPermissions schema uses type =
      (Permissions.ofDirectives uses).merge (· ++ ·) (schema.handedOn? type) := by
  unfold fieldPermissions
  dsimp only
  cases type with
  | named id =>
    dsimp only [handedOn?]
    cases (schema.get? id).bind NamedType.permissions with
    | none => cases Permissions.ofDirectives uses <;> rfl
    | some listed => cases listed <;> cases Permissions.ofDirectives uses <;> rfl
  | _ => cases Permissions.ofDirectives uses <;> rfl

/-- A reference that is the bare name of a type takes the permission over from the type. -/
def Inherits (schema : Schema) (type : TypeRef) (permission : String) : Prop :=
  ∃ id t permissions, type = .named id ∧ schema.get? id = some t ∧
    t.permissions = some permissions ∧ permission ∈ permissions

/-- A reference behind a wrapper takes nothing over. -/
theorem not_inherits_of_ne_named {type : TypeRef} (h : ∀ id, type ≠ .named id) :
    ¬ schema.Inherits type permission := by
  rintro ⟨id, -, -, heq, -⟩
  exact h id heq

/-- A bare name takes over what its type has. -/
theorem inherits_named_iff {id : TypeId} : schema.Inherits (.named id) permission ↔
    permission ∈ ((schema.get? id).bind NamedType.permissions).getD [] := by
  constructor
  · rintro ⟨_, t, permissions, heq, ht, hpermissions, hmem⟩
    cases heq
    rwa [ht, Option.bind_some, hpermissions]
  · intro hmem
    cases ht : schema.get? id with
    | none => simp [ht] at hmem
    | some t =>
      rw [ht, Option.bind_some] at hmem
      cases hpermissions : t.permissions with
      | none => simp [hpermissions] at hmem
      | some permissions =>
        rw [hpermissions] at hmem
        exact ⟨id, t, permissions, rfl, ht, hpermissions, hmem⟩

/-- What is taken over is what the type hands on. -/
theorem inherits_iff_mem_handedOn? {type : TypeRef} : schema.Inherits type permission ↔
    permission ∈ (schema.handedOn? type).getD [] := by
  cases type with
  | named id =>
    rw [inherits_named_iff, handedOn?]
    cases (schema.get? id).bind NamedType.permissions with
    | none => rfl
    | some listed => cases listed <;> rfl
  | _ => exact iff_of_false (not_inherits_of_ne_named (by simp)) List.not_mem_nil

/-- The permissions of a field are its own and those that it takes over. -/
theorem mem_fieldPermissions_iff {uses : List DirectiveUse} {type : TypeRef} :
    permission ∈ (fieldPermissions schema uses type).getD [] ↔
      permission ∈ (Permissions.ofDirectives uses).getD [] ∨
        schema.Inherits type permission := by
  rw [fieldPermissions_eq_merge, inherits_iff_mem_handedOn?]
  cases Permissions.ofDirectives uses <;> cases schema.handedOn? type <;> simp

/-- A built schema hands permissions on as the registered types do. -/
theorem BuiltFrom.inherits_iff (h : BuiltFrom document directives base supplies schema)
    {type : TypeRef} : base.Inherits type permission ↔ schema.Inherits type permission := by
  cases type with
  | named id =>
    have hmap := map_get?_eq_of_map_types h.permissions id
    have hbind : ∀ s : Schema, ((s.get? id).bind NamedType.permissions).getD [] =
        (((s.get? id).map NamedType.permissions).getD none).getD [] := by
      intro s
      cases s.get? id <;> rfl
    rw [inherits_named_iff, inherits_named_iff, hbind, hbind, hmap]
  | nonNull inner =>
    exact iff_of_false (not_inherits_of_ne_named (by simp)) (not_inherits_of_ne_named (by simp))
  | list inner =>
    exact iff_of_false (not_inherits_of_ne_named (by simp)) (not_inherits_of_ne_named (by simp))

/-! ### Fields of a built schema -/

/-- What the definition of a field declares, the document declares at a field. -/
theorem declaresAtField_of_get? {name : String} {definition : TypeDef} {uses : List DirectiveUse}
    (hget : document.get? name = some definition) (huses : uses ∈ definition.body.fieldDirectives)
    (hmem : permission ∈ (Permissions.ofDirectives uses).getD []) :
    document.DeclaresAtField permission :=
  ⟨definition, List.mem_map.2 ⟨_, Table.get?_eq_some_iff.1 hget, rfl⟩, uses, huses, hmem⟩

/-- A permission of an object's field is declared at a field, or taken over from a type. -/
theorem declaresAtField_of_field (h : build document directives = .ok schema) {t : ObjectType}
    (ht : t ∈ schema.objects) {field : Field} (hfield : field ∈ t.fields.values)
    (hmem : permission ∈ field.permissions.getD []) :
    document.DeclaresAtField permission ∨ schema.Inherits field.type permission := by
  obtain ⟨base, supplies, hbuilt⟩ := exists_builtFrom h
  obtain ⟨defs, ⟨definition, hget, hbody⟩, d, hd, hmade⟩ := hbuilt.exists_fieldDef ht hfield
  rw [(objectField_eq_ok hmade).permissions, mem_fieldPermissions_iff, hbuilt.inherits_iff] at hmem
  refine hmem.imp_left (declaresAtField_of_get? hget ?_)
  rw [hbody]
  exact List.mem_map_of_mem hd

/-- A permission of an input field is declared at a field, or taken over from a type. -/
theorem declaresAtField_of_inputField (h : build document directives = .ok schema)
    {t : InputType} (ht : t ∈ schema.inputs) {field : InputField} (hfield : field ∈ t.fields.values)
    (hmem : permission ∈ field.permissions.getD []) :
    document.DeclaresAtField permission ∨ schema.Inherits field.type permission := by
  obtain ⟨base, supplies, hbuilt⟩ := exists_builtFrom h
  obtain ⟨name, defs, hdefs, d, hd, hmade⟩ := hbuilt.inputs t ht field hfield
  obtain ⟨definition, hget, hbody⟩ := inputFieldDefs?_eq_some_iff.1 hdefs
  rw [(inputField_eq_ok hmade).permissions, mem_fieldPermissions_iff, hbuilt.inherits_iff] at hmem
  refine hmem.imp_left (declaresAtField_of_get? hget ?_)
  rw [hbody]
  exact List.mem_map_of_mem hd

/-- After a registry was updated from the document of a schema, every permission at a field of an
object or of an input type has a number, unless the field takes it over from its type. A
permission that is taken over, and one at an argument, has a number only as any other one: if it
had one before, or if a field of the document declares it. -/
theorem isSome_get?_update_of_build (h : build document directives = .ok schema)
    (registry : Registry) :
    (∀ t ∈ schema.objects, ∀ field ∈ t.fields.values, ∀ permission ∈ field.permissions.getD [],
      ¬ schema.Inherits field.type permission →
        ((registry.update document).get? permission).isSome = true) ∧
    (∀ t ∈ schema.inputs, ∀ field ∈ t.fields.values, ∀ permission ∈ field.permissions.getD [],
      ¬ schema.Inherits field.type permission →
        ((registry.update document).get? permission).isSome = true) ∧
    ∀ permission, ((registry.update document).get? permission).isSome = true ↔
      (registry.get? permission).isSome = true ∨ document.DeclaresAtField permission := by
  refine ⟨?_, ?_, fun permission => registry.isSome_get?_update_iff⟩
  · intro t ht field hfield permission hmem hinherits
    have hdeclared := (declaresAtField_of_field h ht hfield hmem).resolve_right hinherits
    exact registry.isSome_get?_update_iff.2 (.inr hdeclared)
  · intro t ht field hfield permission hmem hinherits
    have hdeclared := (declaresAtField_of_inputField h ht hfield hmem).resolve_right hinherits
    exact registry.isSome_get?_update_iff.2 (.inr hdeclared)

/-! ### A document with permissions at all places -/

/-- A use of the directive that lists one permission. -/
def permissionUse (permission : String) : DirectiveUse where
  name := Permissions.directiveName
  arguments := Table.ofList [("permissions", .array [.string permission])]

/-- An object with a permission of its own, a field of its own type with another one, and an
argument of this field with a third one. -/
def nestedDocument : SchemaDocument where
  types := Table.ofList
    [("A", ⟨"A", none, [permissionUse "T"], .object [⟨"x", none, .named "A",
      [⟨"y", none, .named "S", [permissionUse "P"]⟩], [permissionUse "F"]⟩]⟩),
    ("S", ⟨"S", none, [], .scalar⟩)]
  query := some "A"
  mutation := none
  subscription := none

/-- The schema of the document: the field has its own permission and that of the object. -/
theorem exists_build_nestedDocument : ∃ schema, build nestedDocument Table.empty = .ok schema ∧
    schema.types.map NamedType.permissions = [some ["T"], none] ∧
    ∃ t ∈ schema.objects, ∃ field ∈ t.fields.values, field.type = .named 0 ∧
      field.permissions = some ["F", "T"] ∧
      ∃ argument ∈ field.arguments.values, argument.permissions = some ["P"] := by
  have hview : (build nestedDocument Table.empty).toOption.map (fun s =>
      (s.types.map NamedType.permissions, s.objects.map fun t => t.fields.values.map fun f =>
        (f.type, f.permissions, f.arguments.values.map (·.permissions)))) =
      some ([some ["T"], none], [[(.named 0, some ["F", "T"], [some ["P"]])]]) := by cbv
  obtain ⟨schema, hbuild, hview⟩ := Option.map_eq_some_iff.1 hview
  obtain ⟨htypes, hobjects⟩ := Prod.mk.inj hview
  obtain ⟨t, ht, hfields⟩ := List.mem_map.1 (hobjects ▸ List.mem_singleton_self _)
  obtain ⟨field, hfield, heq⟩ := List.mem_map.1 (hfields ▸ List.mem_singleton_self _)
  obtain ⟨htype, hrest⟩ := Prod.mk.inj heq
  obtain ⟨hpermissions, harguments⟩ := Prod.mk.inj hrest
  obtain ⟨argument, hargument, hown⟩ :=
    List.mem_map.1 (harguments ▸ List.mem_singleton_self _)
  exact ⟨schema, Results.toOption_eq_some_iff.1 hbuild, htypes, t, ht, field, hfield, htype,
    hpermissions, argument, hargument, hown⟩

/-- A new registry that was updated from the document knows the permission of the field only. -/
theorem entries_update_nestedDocument :
    (Registry.empty.update nestedDocument).table.entries = [("F", 0)] := by cbv

/-- The permission of the field has a number after the update. -/
theorem isSome_get?_update_nestedDocument : ∃ schema t field,
    build nestedDocument Table.empty = .ok schema ∧ t ∈ schema.objects ∧
      field ∈ t.fields.values ∧ "F" ∈ field.permissions.getD [] ∧
      ¬ schema.Inherits field.type "F" ∧
      ((Registry.empty.update nestedDocument).get? "F").isSome = true := by
  obtain ⟨schema, hbuild, htypes, t, ht, field, hfield, htype, hpermissions, -⟩ :=
    exists_build_nestedDocument
  have hmem : "F" ∈ field.permissions.getD [] := by
    rw [hpermissions]
    exact List.mem_cons_self
  have hinherits : ¬ schema.Inherits field.type "F" := by
    have hget : (schema.get? 0).map NamedType.permissions = some (some ["T"]) := by
      rw [get?, ← List.getElem?_map, htypes]
      rfl
    obtain ⟨type, htype₀, htype₁⟩ := Option.map_eq_some_iff.1 hget
    rw [htype, inherits_named_iff, htype₀, Option.bind_some, htype₁]
    simp
  exact ⟨schema, t, field, hbuild, ht, hfield, hmem, hinherits,
    (isSome_get?_update_of_build hbuild Registry.empty).1 t ht field hfield "F" hmem hinherits⟩

/-- The permission that the field takes over from its type and the permission of its argument
have no number after the update. -/
theorem exists_permission_without_number : ∃ schema, build nestedDocument Table.empty = .ok schema ∧
    ∃ t ∈ schema.objects, ∃ field ∈ t.fields.values,
      "T" ∈ field.permissions.getD [] ∧
      (Registry.empty.update nestedDocument).get? "T" = none ∧
      ∃ argument ∈ field.arguments.values, "P" ∈ argument.permissions.getD [] ∧
        (Registry.empty.update nestedDocument).get? "P" = none := by
  obtain ⟨schema, hbuild, -, t, ht, field, hfield, -, hpermissions, argument, hargument, hown⟩ :=
    exists_build_nestedDocument
  have hget : ∀ permission, (Registry.empty.update nestedDocument).get? permission =
      [("F", 0)].lookup permission := by
    intro permission
    rw [Registry.get?, Table.get?, entries_update_nestedDocument]
  refine ⟨schema, hbuild, t, ht, field, hfield, ?_, ?_, argument, hargument, ?_, ?_⟩
  · rw [hpermissions]
    exact List.mem_cons_of_mem _ List.mem_cons_self
  · rw [hget]
    rfl
  · rw [hown]
    exact List.mem_cons_self
  · rw [hget]
    rfl

end Schema

end SignalSchema
