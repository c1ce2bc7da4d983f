import SignalSchema.Proofs.Permission.Coverage
import SignalSchema.Proofs.Schema.Completed
import SignalSchema.Proofs.Schema.InTurn

/-!
# Permissions of fields

A field needs the permissions that it declares, followed by those that its type hands on. Here both
are read off the document: the first use of the directive at the field, and the first one at the
definition that its type expression names. A list or a non-null mark around the name hands nothing
on, and neither does a definition with an empty list. `Grants` says this of one field, and
`permissions_of_build` of all fields, input fields and arguments of a built schema, also when it was
built type by type.
-/

namespace SignalSchema

/-- The first use of the directive lists the given permissions. -/
def Permissions.FirstLists (uses : List DirectiveUse) (listed : List String) : Prop :=
  ∃ before use after, uses = before ++ use :: after ∧
    (∀ earlier ∈ before, earlier.name ≠ Permissions.directiveName) ∧
    use.name = Permissions.directiveName ∧
    listed = Permissions.ofJson (use.arguments.get? "permissions")

/-- The permissions at a place are those of the first use of the directive. -/
theorem Permissions.ofDirectives_eq_some_iff {uses : List DirectiveUse} {listed : List String} :
    Permissions.ofDirectives uses = some listed ↔ Permissions.FirstLists uses listed := by
  unfold Permissions.ofDirectives
  rw [Option.map_eq_some_iff]
  simp only [List.find?_eq_some_iff_append, beq_iff_eq, Bool.not_eq_true', beq_eq_false_iff_ne]
  constructor
  · rintro ⟨use, ⟨hname, before, after, huses, hbefore⟩, rfl⟩
    exact ⟨before, use, after, huses, hbefore, hname, rfl⟩
  · rintro ⟨before, use, after, huses, hbefore, hname, rfl⟩
    exact ⟨use, ⟨hname, before, after, huses, hbefore⟩, rfl⟩

namespace SchemaDocument

/-- The expression is the bare name of an object or of an input type, and the definition of the type
lists the given permissions, of which there are some. -/
def HandsOn (document : SchemaDocument) (type : TypeExpr) (listed : List String) : Prop :=
  ∃ name definition, type = .named name ∧ document.get? name = some definition ∧
    ((∃ fields, definition.body = .object fields) ∨ ∃ fields, definition.body = .input fields) ∧
    Permissions.FirstLists definition.directives listed ∧ listed ≠ []

/-- What a place with the given directives and type needs: its own permissions and those that its
type hands on. It needs nothing if there are neither, and otherwise the former followed by the
latter. -/
def Grants (document : SchemaDocument) (uses : List DirectiveUse) (type : TypeExpr)
    (permissions : Option (List String)) : Prop :=
  ∃ own inherited : Option (List String),
    (∀ listed, own = some listed ↔ Permissions.FirstLists uses listed) ∧
    (∀ listed, inherited = some listed ↔ document.HandsOn type listed) ∧
    (permissions = none ↔ own = none ∧ inherited = none) ∧
    ∀ all, permissions = some all → all = own.getD [] ++ inherited.getD []

/-- An input field, or an argument, stands under the name of its definition and has its
permissions. -/
def GrantsInput (document : SchemaDocument) (definition : InputValueDef)
    (entry : String × InputField) : Prop :=
  entry.1 = definition.name ∧
    document.Grants definition.directives definition.type entry.2.permissions

/-- A field stands under the name of its definition and has its permissions, and so do its
arguments, in the order of their names. -/
def GrantsField (document : SchemaDocument) (definition : FieldDef) (entry : String × Field) :
    Prop :=
  entry.1 = definition.name ∧
    document.Grants definition.directives definition.type entry.2.permissions ∧
    List.Forall₂ document.GrantsInput
      (definition.arguments.mergeSort fun a b => a.name ≤ b.name) entry.2.arguments.entries

end SchemaDocument

namespace Schema

open Deploy (DirectiveMap)

variable {document : SchemaDocument} {directives : DirectiveMap} {base schema : Schema}
  {parent : String}

/-! ### What types hand on -/

/-- Objects and input types have the permissions of their definitions, and other types have none. -/
theorem permissions_of_register {definition : TypeDef} {t : NamedType}
    (h : register document directives definition = .ok t) :
    t.permissions =
      match definition.body with
      | .object _ | .input _ => Permissions.ofDirectives definition.directives
      | _ => none := by
  unfold register at h
  split at h <;> first | (obtain rfl := Except.ok.inj h; simp only [*]; rfl) | cases h

/-- A resolved reference hands on what its expression does. -/
theorem handedOn?_eq_some_iff (hkeyed : document.KeyedByName)
    (hbase : registerAll document directives = .ok base) {expr : TypeExpr} {ref : TypeRef}
    (hresolve : resolveType base parent expr = .ok ref) {listed : List String} :
    base.handedOn? ref = some listed ↔ document.HandsOn expr listed := by
  cases expr with
  | named name =>
    rw [resolveType] at hresolve
    split at hresolve
    next id hid =>
      obtain rfl := Except.ok.inj hresolve
      -- the type at the position is that of the definition under the name
      obtain ⟨t, ht, hname⟩ := Option.map_eq_some_iff.1 ((lookup?_eq_some_iff hkeyed hbase).1 hid)
      obtain ⟨definition, hmem, hregister⟩ := exists_definition hbase ht
      have hget : document.get? name = some definition :=
        hkeyed.get?_eq_some_iff.2 ⟨hmem, hname ▸ (name_of_register hregister).symm⟩
      have hpermissions : t.permissions = some listed ↔
          ((∃ fields, definition.body = .object fields) ∨
            ∃ fields, definition.body = .input fields) ∧
            Permissions.FirstLists definition.directives listed := by
        rw [permissions_of_register hregister, ← Permissions.ofDirectives_eq_some_iff]
        cases definition.body <;> simp
      rw [handedOn?, ht, Option.bind_some, Option.filter_eq_some_iff, hpermissions,
        decide_eq_true_iff, and_assoc]
      constructor
      · exact fun h => ⟨name, definition, rfl, hget, h⟩
      · rintro ⟨_, definition', heq, hget', h⟩
        obtain rfl := TypeExpr.named.inj heq
        obtain rfl := Option.some.inj (hget.symm.trans hget')
        exact h
    next => cases hresolve
  | nonNull inner =>
    obtain ⟨r, -, rfl⟩ := Results.map_eq_ok_iff.1 hresolve
    refine iff_of_false (fun h => ?_) ?_
    · cases h
    · rintro ⟨_, _, heq, -⟩
      cases heq
  | list inner =>
    obtain ⟨r, -, rfl⟩ := Results.map_eq_ok_iff.1 hresolve
    refine iff_of_false (fun h => ?_) ?_
    · cases h
    · rintro ⟨_, _, heq, -⟩
      cases heq

/-! ### Fields -/

section Fields

variable (hkeyed : document.KeyedByName) (hbase : registerAll document directives = .ok base)

include hkeyed hbase

/-- The permissions that are found by a resolved reference are those that the document grants. -/
theorem grants_fieldPermissions {expr : TypeExpr} {ref : TypeRef}
    (hresolve : resolveType base parent expr = .ok ref) (uses : List DirectiveUse) :
    document.Grants uses expr (fieldPermissions base uses ref) := by
  refine ⟨Permissions.ofDirectives uses, base.handedOn? ref,
    fun _ => Permissions.ofDirectives_eq_some_iff,
    fun _ => handedOn?_eq_some_iff hkeyed hbase hresolve, ?_, ?_⟩
  · rw [fieldPermissions_eq_merge, Option.merge_eq_none_iff]
  · intro all hall
    rw [fieldPermissions_eq_merge] at hall
    generalize Permissions.ofDirectives uses = own at hall ⊢
    generalize base.handedOn? ref = inherited at hall ⊢
    cases own <;> cases inherited <;> cases hall <;> simp

/-- Resolved input fields with distinct names have the permissions that the document grants. -/
theorem forall₂_grantsInput {defs : List InputValueDef} {fields : List InputField}
    (hdistinct : (defs.map (·.name)).Nodup)
    (h : List.Forall₂ (ResolvedInput base parent) defs fields) :
    List.Forall₂ document.GrantsInput defs
      (Table.ofList (fields.map fun f => (f.name, f))).entries := by
  refine (forall₂_entries_ofList h (fun _ _ hd => hd.name) hdistinct).imp ?_
  rintro d _ ⟨f, rfl, hd⟩
  refine ⟨hd.name, ?_⟩
  rw [hd.permissions]
  exact grants_fieldPermissions hkeyed hbase hd.type d.directives

/-- A resolved field whose arguments have distinct names has the permissions that the document
grants. -/
theorem grantsField {d : FieldDef} {f : Field} (hdistinct : (d.arguments.map (·.name)).Nodup)
    (h : ResolvedField base parent d f) : document.GrantsField d (f.name, f) := by
  obtain ⟨arguments, harguments, htable⟩ := h.arguments
  have hsorted : ((d.arguments.mergeSort fun a b => a.name ≤ b.name).map (·.name)).Nodup :=
    ((List.mergeSort_perm d.arguments _).map _).nodup_iff.2 hdistinct
  refine ⟨h.name, ?_, ?_⟩
  · rw [h.permissions]
    exact grants_fieldPermissions hkeyed hbase h.type d.directives
  · rw [htable]
    exact forall₂_grantsInput hkeyed hbase hsorted harguments

/-- An object that is made of a declaration has fields with the permissions that the document
grants. -/
theorem ObjectMadeOf.forall₂_grantsField {declared : String × List FieldDef} {o : ObjectType}
    (h : ObjectMadeOf directives base declared o)
    (hdistinct : (declared.2.map (·.name)).Nodup)
    (harguments : ∀ d ∈ declared.2, (d.arguments.map (·.name)).Nodup) :
    List.Forall₂ document.GrantsField declared.2 o.fields.entries := by
  obtain ⟨fields, hfields, htable⟩ := h.fields
  have hmade := (List.forall₂_and_left _ _).2 ⟨harguments, hfields⟩
  rw [htable]
  refine (forall₂_entries_ofList hmade
    (fun _ _ hd => (objectField_eq_ok hd.2).name) hdistinct).imp ?_
  rintro d _ ⟨f, rfl, harguments, hd⟩
  exact grantsField hkeyed hbase harguments (objectField_eq_ok hd)

/-- An input type that is made of a declaration has fields with the permissions that the document
grants. -/
theorem InputMadeOf.forall₂_grantsInput {declared : String × List InputValueDef} {i : InputType}
    (h : InputMadeOf directives base declared i) (hdistinct : (declared.2.map (·.name)).Nodup) :
    List.Forall₂ document.GrantsInput declared.2 i.fields.entries := by
  obtain ⟨fields, hfields, htable⟩ := h.fields
  rw [htable]
  exact Schema.forall₂_grantsInput hkeyed hbase hdistinct
    (hfields.imp fun _ _ hd => inputField_eq_ok hd)

end Fields

/-! ### Built schemas -/

/-- Where definitions stand under their own names, and fields and arguments have distinct names, the
fields, the input fields and the arguments of a built schema have the permissions that the document
grants; and the schema is the same when it is built type by type, so that the permissions do not
depend on which types have been filled already. -/
theorem permissions_of_build (hkeyed : document.KeyedByName)
    (hdistinct : document.DistinctFields) (harguments : document.DistinctArguments)
    (h : build document directives = .ok schema) :
    buildInTurn document directives = .ok schema ∧
      List.Forall₂ (fun declared o => o.name = declared.1 ∧
        List.Forall₂ document.GrantsField declared.2 o.fields.entries)
        document.objects schema.objects ∧
      List.Forall₂ (fun declared i => i.name = declared.1 ∧
        List.Forall₂ document.GrantsInput declared.2 i.fields.entries)
        document.inputs schema.inputs := by
  obtain ⟨base, hcompleted⟩ := exists_completedFrom hkeyed h
  have hbase := hcompleted.registered
  refine ⟨(buildInTurn_eq_build document directives).trans h, ?_, ?_⟩
  · refine ((List.forall₂_and_left _ _).2 ⟨fun declared hmem =>
      (⟨hdistinct.nodup_objects declared hmem, harguments.nodup_objects declared hmem⟩ : _ ∧ _),
      hcompleted.forall₂_objects⟩).imp ?_
    rintro declared o ⟨⟨hfields, harguments⟩, hmade⟩
    exact ⟨hmade.name, hmade.forall₂_grantsField hkeyed hbase hfields harguments⟩
  · refine ((List.forall₂_and_left _ _).2
      ⟨hdistinct.nodup_inputs, hcompleted.forall₂_inputs⟩).imp ?_
    rintro declared i ⟨hfields, hmade⟩
    exact ⟨hmade.name, hmade.forall₂_grantsInput hkeyed hbase hfields⟩

/-- An object `A` with fields of its own type, bare and behind a mark, and of a scalar type, and an
input type `I` with a field of its own type. All three types have permissions, and the first field
has permissions, too. -/
def handingDocument : SchemaDocument where
  types := Table.ofList
    [("A", ⟨"A", none, [permissionUse "A"], .object
        [⟨"x", none, .named "A", [⟨"b", none, .named "I", []⟩], [permissionUse "F"]⟩,
          ⟨"y", none, .nonNull (.named "A"), [], []⟩,
          ⟨"z", none, .named "S", [], []⟩]⟩),
      ("I", ⟨"I", none, [permissionUse "I"], .input [⟨"n", none, .named "I", []⟩]⟩),
      ("S", ⟨"S", none, [permissionUse "S"], .scalar⟩)]
  query := some "A"
  mutation := none
  subscription := none

/-- Only the bare names of the object and of the input type hand permissions on, and they do so to
fields of their own types. -/
theorem permissions_handingDocument : handingDocument.KeyedByName ∧
    handingDocument.DistinctFields ∧ handingDocument.DistinctArguments ∧
    ∃ schema, build handingDocument Table.empty = .ok schema ∧
      (schema.objects.map fun o => o.fields.values.map fun f =>
        (f.permissions, f.arguments.values.map (·.permissions))) =
        [[(some ["F", "A"], [some ["I"]]), (none, []), (none, [])]] ∧
      (schema.inputs.map fun i => i.fields.values.map (·.permissions)) = [[some ["I"]]] ∧
      List.Forall₂ (fun declared o => o.name = declared.1 ∧
        List.Forall₂ handingDocument.GrantsField declared.2 o.fields.entries)
        handingDocument.objects schema.objects := by
  have hkeyed : handingDocument.KeyedByName := by
    unfold SchemaDocument.KeyedByName
    decide
  have hdistinct : handingDocument.DistinctFields := by
    unfold SchemaDocument.DistinctFields
    decide
  have harguments : handingDocument.DistinctArguments := by
    unfold SchemaDocument.DistinctArguments
    decide
  have hview : (build handingDocument Table.empty).toOption.map (fun s =>
      (s.objects.map fun o => o.fields.values.map fun f =>
        (f.permissions, f.arguments.values.map (·.permissions)),
      s.inputs.map fun i => i.fields.values.map (·.permissions))) =
        some ([[(some ["F", "A"], [some ["I"]]), (none, []), (none, [])]],
          [[some ["I"]]]) := by cbv
  obtain ⟨schema, hbuild, hview⟩ := Option.map_eq_some_iff.1 hview
  obtain ⟨hfields, hinputs⟩ := Prod.mk.inj hview
  have hbuild := Results.toOption_eq_some_iff.1 hbuild
  exact ⟨hkeyed, hdistinct, harguments, schema, hbuild, hfields, hinputs,
    (permissions_of_build hkeyed hdistinct harguments hbuild).2.1⟩

end Schema

end SignalSchema
