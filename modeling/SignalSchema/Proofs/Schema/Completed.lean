import Mathlib.Data.Option.Basic
import SignalSchema.Proofs.Schema.Built

/-!
# Completed types

Every type of a built schema is the registered type of a definition, completed by the fields that
are declared for it. `Becomes` says this of one definition and one type. The marks are left out of
it, since they depend on other definitions; `CompletedFrom` holds of a schema when its types are
completed in this way, whatever their marks are, and marking list items keeps it. What this says of
the objects and of the input types is read off the declared ones (`forall₂_objects`,
`forall₂_inputs`).
-/

namespace SignalSchema

namespace NamedType

/-- The local attributes of an object, absent where there are none. -/
def localAttributes? (t : NamedType) : Option (Table TypeRef) :=
  t.object?.bind (·.localAttributes)

@[simp] theorem name_withoutMarks (t : NamedType) : t.withoutMarks.name = t.name := by
  cases t <;> rfl

@[simp] theorem kind_withoutMarks (t : NamedType) : t.withoutMarks.kind = t.kind := by
  cases t <;> rfl

@[simp] theorem fields?_withoutMarks (t : NamedType) : t.withoutMarks.fields? = t.fields? := by
  cases t <;> rfl

@[simp] theorem inputFields?_withoutMarks (t : NamedType) :
    t.withoutMarks.inputFields? = t.inputFields? := by
  cases t <;> rfl

@[simp] theorem localAttributes?_withoutMarks (t : NamedType) :
    t.withoutMarks.localAttributes? = t.localAttributes? := by
  cases t <;> rfl

end NamedType

namespace Schema

open Deploy (DirectiveMap)

variable {document : SchemaDocument} {directives : DirectiveMap} {base schema : Schema}
  {definition : TypeDef} {t : NamedType} {id : TypeId}

/-- What a definition becomes, apart from the marks: the registered type, which for an input type
or an object receives the fields that are made of the declared ones. -/
inductive Becomes (document : SchemaDocument) (directives : DirectiveMap) (base : Schema)
    (definition : TypeDef) : NamedType → Prop
  | plain {t : NamedType} (registered : register document directives definition = .ok t)
      (input : t.kind ≠ .input) (object : t.kind ≠ .object) :
      Becomes document directives base definition t
  | input {i : InputType} {defs : List InputValueDef} {fields : List InputField}
      (registered : register document directives definition = .ok (.input i))
      (declared : definition.body = .input defs)
      (made : List.Forall₂ (fun d f => inputField base directives (inputPrefix definition.name)
        definition.name d = .ok f) defs fields) :
      Becomes document directives base definition (.input (i.withFields fields))
  | object {o : ObjectType} {defs : List FieldDef} {fields : List Field}
      (registered : register document directives definition = .ok (.object o))
      (declared : definition.body = .object defs)
      (made : List.Forall₂ (fun d f => objectField base directives definition.name d = .ok f)
        defs fields) :
      Becomes document directives base definition (.object (o.withFields fields))

namespace Becomes

/-- A completed type has the name of its definition. -/
theorem name_eq (h : Becomes document directives base definition t) : t.name = definition.name := by
  cases h with
  | plain registered => exact name_of_register registered
  | input registered => exact (name_of_register registered :)
  | object registered => exact (name_of_register registered :)

/-- A completed type has the kind of its definition. -/
theorem typeKind?_eq (h : Becomes document directives base definition t) :
    definition.body.typeKind? = some t.kind := by
  cases h with
  | plain registered => exact typeKind?_of_register registered
  | input registered => exact (typeKind?_of_register registered :)
  | object registered => exact (typeKind?_of_register registered :)

end Becomes

/-- The types of a schema are registered ones that were completed, whatever marks they have. -/
structure CompletedFrom (document : SchemaDocument) (directives : DirectiveMap)
    (base schema : Schema) : Prop where
  registered : registerAll document directives = .ok base
  index : schema.index = base.index
  types : List.Forall₂ (Becomes document directives base) document.sortedTypes
    (schema.types.map NamedType.withoutMarks)

/-! ### Completing the registered types -/

/-- A registered type has no marks. -/
theorem withoutMarks_of_register (h : register document directives definition = .ok t) :
    t.withoutMarks = t := by
  unfold register at h
  split at h <;> first | (obtain rfl := Except.ok.inj h; rfl) | cases h

/-- A registered input type becomes what it is filled to. -/
theorem becomes_of_fillInput {i i' : InputType}
    (hget : document.get? definition.name = some definition)
    (hr : register document directives definition = .ok (.input i))
    (hi' : fillInput document directives base i = .ok i') :
    Becomes document directives base definition (NamedType.input i').withoutMarks := by
  have hname : i.name = definition.name := name_of_register hr
  obtain ⟨defs, hbody⟩ := exists_input_body_of_register hr
  have hdefs : inputFieldDefs? document i.name = some defs :=
    inputFieldDefs?_eq_some_iff.2 ⟨definition, hname ▸ hget, hbody⟩
  rcases fillInput_eq_ok hi' with ⟨hnone, -⟩ | ⟨_, fields, hdefs', hmade, rfl⟩
  · cases hnone.symm.trans hdefs
  · obtain rfl := Option.some.inj (hdefs.symm.trans hdefs')
    rw [hname] at hmade
    -- the registered type has no mark, and receiving fields makes none
    have hbare : { i with isList := false } = i :=
      NamedType.input.inj (withoutMarks_of_register hr)
    have hmarks : (NamedType.input (i.withFields fields)).withoutMarks =
        .input (i.withFields fields) := by
      conv_rhs => rw [← hbare]
      rfl
    rw [hmarks]
    exact .input hr hbody hmade

/-- A type that is no object is not supplied with fields. -/
theorem bareAt?_foldl_connect_of_kind_ne {filled : Schema} {supplies : List Supply}
    (hsupplies : Schema.supplies document directives base = .ok supplies)
    (hbase : base.get? id = some t) (hkind : t.kind ≠ .object) :
    (supplies.foldl connect filled).bareAt? id = filled.bareAt? id := by
  apply bareAt?_foldl_connect_of_notMem
  intro hid
  obtain ⟨supply, hsupply, rfl⟩ := List.mem_map.1 hid
  obtain ⟨name, defs, hobject, -⟩ := exists_declaration hsupplies hsupply
  rw [isObject, objectAt?, hbase] at hobject
  cases t with
  | object o => exact hkind rfl
  | _ => cases hobject

/-- A registered object becomes what it is supplied to. -/
theorem exists_becomes_of_supplies {filled : Schema} {supplies : List Supply} {o : ObjectType}
    (hget : document.get? definition.name = some definition)
    (hr : register document directives definition = .ok (.object o))
    (hsupplies : Schema.supplies document directives base = .ok supplies)
    (hbase : base.get? id = some (.object o)) (hfilled : filled.bareAt? id = some (.object o)) :
    ∃ t, (supplies.foldl connect filled).bareAt? id = some t ∧
      Becomes document directives base definition t := by
  have hname : base.nameAt? id = some definition.name := by
    rw [nameAt?, hbase, Option.map_some, ← name_of_register hr]
  have hobject : base.isObject id = true := by
    rw [isObject, objectAt?, hbase]
    rfl
  obtain ⟨defs, hbody⟩ := exists_object_body_of_register hr
  obtain ⟨supply, hsupply, rfl, hmade⟩ :=
    exists_supply hsupplies hobject hname ⟨definition, hget, hbody⟩
  refine ⟨_, ?_, .object hr hbody hmade⟩
  rw [bareAt?_foldl_connect_of_mem (nodup_supplies hsupplies) hsupply, hfilled]
  rfl

/-- A registered type becomes what filling the input types and connecting the objects make of
it. -/
theorem exists_becomes {filled : Schema} {supplies : List Supply} {t₀ t₁ : NamedType}
    (hget : document.get? definition.name = some definition)
    (hr : register document directives definition = .ok t₀)
    (hsupplies : Schema.supplies document directives base = .ok supplies)
    (hbase : base.get? id = some t₀) (hfilled : filled.get? id = some t₁)
    (hfill : (∃ i i', t₀ = .input i ∧ fillInput document directives base i = .ok i' ∧
      t₁ = .input i') ∨ t₀.kind ≠ .input ∧ t₁ = t₀) :
    ∃ t, (supplies.foldl connect filled).bareAt? id = some t ∧
      Becomes document directives base definition t := by
  have hbare : filled.bareAt? id = some t₁.withoutMarks := by
    rw [bareAt?, hfilled, Option.map_some]
  rcases hfill with ⟨i, i', rfl, hi', rfl⟩ | ⟨hkind, rfl⟩
  · rw [bareAt?_foldl_connect_of_kind_ne hsupplies hbase (by simp [NamedType.kind])]
    exact ⟨_, hbare, becomes_of_fillInput hget hr hi'⟩
  · rw [withoutMarks_of_register hr] at hbare
    cases t₁ with
    | object o => exact exists_becomes_of_supplies hget hr hsupplies hbase hbare
    | input i => exact absurd rfl hkind
    | _ =>
      rw [bareAt?_foldl_connect_of_kind_ne hsupplies hbase (by simp [NamedType.kind])]
      exact ⟨_, hbare, .plain hr hkind (by simp [NamedType.kind])⟩

/-- The types of a built schema are completed ones. -/
theorem exists_completedFrom (hkeyed : document.KeyedByName)
    (h : build document directives = .ok schema) :
    ∃ base, CompletedFrom document directives base schema := by
  obtain ⟨base, filled, supplies, hbase, hfilled, hsupplies, rfl⟩ := exists_of_build h
  have hregister := forall₂_register hkeyed hbase
  have hfill := fillInputs_eq_ok hfilled
  have hlength : (supplies.foldl connect filled).types.length = filled.types.length := by
    have hkinds : BlindToMarks NamedType.kind := by
      constructor <;> intro t <;> cases t <;> rfl
    have hmap := map_types_foldl_connect hkinds (fun t _ => by cases t <;> rfl) filled supplies
    simpa using congrArg List.length hmap
  refine ⟨base, hbase, (index_foldl_connect supplies filled).trans (index_fillInputs hfilled), ?_⟩
  rw [Results.forall₂_iff_getElem?]
  refine ⟨?_, fun id d t hd ht => ?_⟩
  · rw [List.length_map, hlength, ← List.Forall₂.length_eq hfill, List.Forall₂.length_eq hregister]
  · -- the registered and the filled type at the position
    obtain ⟨t₀, ht₀, hget, hr⟩ := Results.exists_getElem?_right hregister hd
    obtain ⟨t₁, ht₁, hfilled⟩ := Results.exists_getElem?_right hfill ht₀
    obtain ⟨t', ht', hbecomes⟩ := exists_becomes hget hr hsupplies ht₀ ht₁ hfilled
    rw [List.getElem?_map] at ht
    obtain rfl := Option.some.inj (ht'.symm.trans ht)
    exact hbecomes

/-! ### What is known of completed types -/

namespace CompletedFrom

variable (h : CompletedFrom document directives base schema)

include h

/-- Marking list items leaves completed types as they are. -/
theorem foldl_markListItem (marks : List TypeId) :
    CompletedFrom document directives base (marks.foldl markListItem schema) := by
  rw [Schema.foldl_markListItem]
  refine ⟨h.registered, (index_markPending schema marks).trans h.index, ?_⟩
  rw [map_types_markPending blindToMarks_withoutMarks.listItem]
  exact h.types

/-- The types have the names of the definitions, in the same order. -/
theorem map_name_types : schema.types.map NamedType.name = document.sortedTypes.map (·.name) := by
  have hnames := Results.map_eq_map h.types fun _ _ hd => hd.name_eq.symm
  rw [hnames, List.map_map]
  exact List.map_congr_left fun t _ => t.name_withoutMarks.symm

/-- The types have the kinds of the registered ones. -/
theorem map_kind_types : schema.types.map NamedType.kind = base.types.map NamedType.kind := by
  have hkinds : document.sortedTypes.map (fun d => d.body.typeKind?) =
      (schema.types.map NamedType.withoutMarks).map fun t => some t.kind :=
    Results.map_eq_map h.types fun _ _ => Becomes.typeKind?_eq
  have hbase : document.sortedTypes.map (fun d => d.body.typeKind?) =
      base.types.map fun t => some t.kind :=
    Results.map_eq_map (registerAll_eq_ok_iff.1 h.registered).1 fun _ _ => typeKind?_of_register
  apply (Option.some_injective TypeKind).list_map
  simpa [Function.comp_def] using hkinds.symm.trans hbase

/-- Names are looked up as among the registered types. -/
theorem lookup?_eq (name : String) : schema.lookup? name = base.lookup? name := by
  rw [lookup?, lookup?, (Prod.mk.inj h.index).1]

/-- Names and positions determine each other. -/
theorem lookup?_eq_some_iff (hkeyed : document.KeyedByName) {name : String} :
    schema.lookup? name = some id ↔ schema.nameAt? id = some name := by
  have hnames : schema.types.map NamedType.name = base.types.map NamedType.name := by
    rw [h.map_name_types, Schema.map_name_types h.registered]
  rw [h.lookup?_eq, Schema.lookup?_eq_some_iff hkeyed h.registered, nameAt?, nameAt?,
    map_get?_eq_of_map_types hnames]

/-- The names with a position are those that the document declares. -/
theorem isSome_lookup?_eq (hkeyed : document.KeyedByName) (name : String) :
    (schema.lookup? name).isSome = document.declares name := by
  rw [h.lookup?_eq, Schema.isSome_lookup?_eq hkeyed h.registered]

/-- The sections list the positions of the types of their kinds. -/
theorem sectioned : Sectioned schema :=
  (sectioned_of_registerAll h.registered).congr (Prod.mk.inj h.index).2 h.map_kind_types

end CompletedFrom

/-! ### Objects and input types -/

/-- A table holds values for the given definitions, entered one after the other under their
names. -/
def Enters {δ φ : Type} (name : φ → String) (r : δ → φ → Prop) (defs : List δ) (table : Table φ) :
    Prop :=
  ∃ values, List.Forall₂ r defs values ∧ table = Table.ofList (values.map fun x => (name x, x))

/-- Values that are entered for definitions are also entered for them with less known of each. -/
theorem Enters.imp {δ φ : Type} {name : φ → String} {r r' : δ → φ → Prop} {defs : List δ}
    {table : Table φ} (h : Enters name r defs table) (himp : ∀ d x, r d x → r' d x) :
    Enters name r' defs table := by
  obtain ⟨values, hvalues, htable⟩ := h
  exact ⟨values, hvalues.imp himp, htable⟩

/-- An object is made of its declaration: the declared fields are resolved and entered one after
the other, and what is collected about fields is collected from this table. -/
structure ObjectMadeOf (directives : DirectiveMap) (base : Schema)
    (declared : String × List FieldDef) (o : ObjectType) : Prop where
  name : o.name = declared.1
  deploy : o.deploy = directives.get? o.name
  fields : Enters Field.name (fun d f => objectField base directives declared.1 d = .ok f)
    declared.2 o.fields
  allDeploy : o.allDeploy = allDirectives o.deploy (o.fields.values.map (·.deploy))
  localAttributes : o.localAttributes = parentAttributes o.fields

/-- An input type is made of its declaration. -/
structure InputMadeOf (directives : DirectiveMap) (base : Schema)
    (declared : String × List InputValueDef) (i : InputType) : Prop where
  name : i.name = declared.1
  deploy : i.deploy = directives.get? i.name
  isListItem : i.isListItem = false
  fields : Enters InputField.name (fun d f => inputField base directives (inputPrefix declared.1)
    declared.1 d = .ok f) declared.2 i.fields
  allDeploy : i.allDeploy = allDirectives i.deploy (i.fields.values.map (·.deploy))

namespace Becomes

/-- A definition becomes an object exactly when it declares one, and the object is made of it. -/
theorem rel_object (h : Becomes document directives base definition t) :
    Option.Rel (ObjectMadeOf directives base) definition.objectFields? t.object? := by
  have hname := h.name_eq
  have hkind := h.typeKind?_eq
  cases h with
  | plain registered input object =>
    have hnone : definition.objectFields? = none := by
      unfold TypeDef.objectFields?
      split
      next hbody =>
        rw [hbody] at hkind
        exact absurd (Option.some.inj hkind).symm object
      next => rfl
    cases t with
    | object o => exact absurd rfl object
    | _ => rw [hnone]; exact .none
  | input registered declared made =>
    rw [TypeDef.objectFields?, declared]
    exact .none
  | object registered declared made =>
    rw [TypeDef.objectFields?, declared]
    exact .some
      ⟨hname, (deploy_of_register_object registered :), ⟨_, made, rfl⟩, rfl, rfl⟩

/-- A definition becomes an input type exactly when it declares one, and the input type is made
of it. -/
theorem rel_input (h : Becomes document directives base definition t) :
    Option.Rel (InputMadeOf directives base) definition.inputFields? t.input? := by
  have hname := h.name_eq
  have hkind := h.typeKind?_eq
  cases h with
  | plain registered input object =>
    have hnone : definition.inputFields? = none := by
      unfold TypeDef.inputFields?
      split
      next hbody =>
        rw [hbody] at hkind
        exact absurd (Option.some.inj hkind).symm input
      next => rfl
    cases t with
    | input i => exact absurd rfl input
    | _ => rw [hnone]; exact .none
  | input registered declared made =>
    rw [TypeDef.inputFields?, declared]
    obtain ⟨hdeploy, hlistItem⟩ := deploy_and_isListItem_of_register_input registered
    exact .some ⟨hname, hdeploy, hlistItem, ⟨_, made, rfl⟩, rfl⟩
  | object registered declared made =>
    rw [TypeDef.inputFields?, declared]
    exact .none

end Becomes

namespace CompletedFrom

variable (h : CompletedFrom document directives base schema)

include h

/-- The objects are made of the declared ones, in the order of their names. -/
theorem forall₂_objects :
    List.Forall₂ (ObjectMadeOf directives base) document.objects schema.objects := by
  refine List.rel_filterMap ?_ (List.forall₂_map_right_iff.1 h.types)
  intro definition t hbecomes
  have hrel := hbecomes.rel_object
  cases t with
  | object o =>
    -- the marks of the object are no part of what it is made of
    generalize definition.objectFields? = declared? at hrel ⊢
    cases hrel with
    | some hmade =>
      exact .some
        ⟨hmade.name, hmade.deploy, hmade.fields, hmade.allDeploy, hmade.localAttributes⟩
  | _ => exact hrel

/-- The input types are made of the declared ones, in the order of their names. -/
theorem forall₂_inputs :
    List.Forall₂ (InputMadeOf directives base) document.inputs schema.inputs := by
  refine List.rel_filterMap ?_ (List.forall₂_map_right_iff.1 h.types)
  intro definition t hbecomes
  have hrel := hbecomes.rel_input
  cases t with
  | input i =>
    generalize definition.inputFields? = declared? at hrel ⊢
    cases hrel with
    | some hmade =>
      exact .some
        ⟨hmade.name, hmade.deploy, hmade.isListItem, hmade.fields, hmade.allDeploy⟩
  | _ => exact hrel

end CompletedFrom

/-- Input types are no list items, and marking list items, whichever they are, makes none of
them. -/
theorem isListItem_of_mem_inputs (hkeyed : document.KeyedByName)
    (h : build document directives = .ok schema) (marks : List TypeId) {i : InputType}
    (hi : i ∈ (marks.foldl markListItem schema).inputs) : i.isListItem = false := by
  obtain ⟨base, hcompleted⟩ := exists_completedFrom hkeyed h
  obtain ⟨declared, -, hmade⟩ :=
    Results.exists_of_mem_right (hcompleted.foldl_markListItem marks).forall₂_inputs hi
  exact hmade.isListItem

end Schema

end SignalSchema
