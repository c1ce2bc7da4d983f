import SignalSchema.Permission.Declared
import SignalSchema.Proofs.Document
import SignalSchema.Proofs.Results
import SignalSchema.Schema.Builder

/-!
# Reordered documents

The order in which a document declares its types, and that in which a field declares its arguments,
has no effect on anything that is made of the document. Two documents are related by
`SchemaDocument.Reordered` if they differ in nothing but these orders. Sorting by names takes such
documents to lists of definitions that belong together place by place (`Reordered.sortedTypes`),
and from there on each step of building does the same for both.
-/

namespace SignalSchema

/-- Two fields differ at most in the order of their arguments, and only if these have distinct
names. -/
structure FieldDef.Reordered (field other : FieldDef) : Prop where
  name : field.name = other.name
  description : field.description = other.description
  type : field.type = other.type
  directives : field.directives = other.directives
  arguments : field.arguments = other.arguments ∨
    field.arguments.Perm other.arguments ∧ (field.arguments.map (·.name)).Nodup

/-- Two bodies differ at most in the order of the arguments of their fields. -/
inductive TypeBody.Reordered : TypeBody → TypeBody → Prop
  | same (body : TypeBody) : Reordered body body
  | object {fields fields' : List FieldDef} (h : List.Forall₂ FieldDef.Reordered fields fields') :
    Reordered (.object fields) (.object fields')

/-- Two definitions differ at most in the order of the arguments of their fields. -/
structure TypeDef.Reordered (definition other : TypeDef) : Prop where
  name : definition.name = other.name
  description : definition.description = other.description
  directives : definition.directives = other.directives
  body : definition.body.Reordered other.body

/-- Two documents have the same root operations and the same definitions under the same names, in
any order, where the arguments of fields may be in another order as well. -/
structure SchemaDocument.Reordered (document other : SchemaDocument) : Prop where
  query : document.query = other.query
  mutation : document.mutation = other.mutation
  subscription : document.subscription = other.subscription
  types : ∃ entries : List (String × TypeDef),
    List.Forall₂ (fun e e' => e.1 = e'.1 ∧ e.2.Reordered e'.2) document.types.entries entries ∧
      entries.Perm other.types.entries

/-! ### What does not depend on the order -/

/-- Sorted by their names, the arguments of reordered fields are the same. -/
theorem FieldDef.Reordered.sorted_arguments {field other : FieldDef} (h : field.Reordered other) :
    (field.arguments.mergeSort fun a b => a.name ≤ b.name) =
      other.arguments.mergeSort fun a b => a.name ≤ b.name := by
  rcases h.arguments with heq | ⟨hperm, hnodup⟩
  · rw [heq]
  · exact Sorting.mergeSort_eq_of_perm hperm hnodup

/-- A field is a reordering of itself. -/
theorem FieldDef.Reordered.refl (field : FieldDef) : field.Reordered field :=
  ⟨rfl, rfl, rfl, rfl, .inl rfl⟩

/-- Reordered bodies have the same directives at their fields. -/
theorem TypeBody.Reordered.fieldDirectives {body other : TypeBody} (h : body.Reordered other) :
    body.fieldDirectives = other.fieldDirectives := by
  cases h with
  | same => rfl
  | object hfields => exact Results.map_eq_map hfields fun _ _ hf => hf.directives

namespace SchemaDocument

variable {document other : SchemaDocument} {name : String}

namespace Reordered

variable (h : document.Reordered other) (hkeyed : document.KeyedByName)

include h hkeyed

/-- The definitions of a reordered document stand under their own names as well. -/
theorem keyedByName : other.KeyedByName := by
  obtain ⟨entries, hentries, hperm⟩ := h.types
  intro e' he'
  obtain ⟨e, he, hkey, hdefinition⟩ :=
    Results.exists_of_mem_right hentries (hperm.mem_iff.2 he')
  rw [← hkey, ← hdefinition.name]
  exact hkeyed e he

/-- In the order of names, the definitions belong together place by place. -/
theorem sortedTypes :
    List.Forall₂ TypeDef.Reordered document.sortedTypes other.sortedTypes := by
  obtain ⟨entries, hentries, hperm⟩ := h.types
  have hvalues : List.Forall₂ TypeDef.Reordered document.types.values (entries.map Prod.snd) := by
    rw [Table.values, List.forall₂_map_left_iff, List.forall₂_map_right_iff]
    exact hentries.imp fun _ _ he => he.2
  have hnames : ((entries.map Prod.snd).map (·.name)).Nodup := by
    rw [← Results.map_eq_map hvalues fun _ _ hd => hd.name]
    exact hkeyed.nodup_values
  have hsorted := Sorting.forall₂_mergeSort hvalues fun _ _ hd => hd.name
  rwa [Sorting.mergeSort_eq_of_perm (hperm.map Prod.snd) hnames] at hsorted

/-- The definitions under a name belong together. -/
theorem get?_rel (name : String) :
    Option.Rel TypeDef.Reordered (document.get? name) (other.get? name) := by
  have hsorted := h.sortedTypes hkeyed
  have hother := h.keyedByName hkeyed
  cases hget : document.get? name with
  | some d =>
    obtain ⟨hmem, hname⟩ := hkeyed.get?_eq_some_iff.1 hget
    obtain ⟨d', hd', hdd'⟩ := Results.exists_of_mem_left hsorted (mem_sortedTypes.2 hmem)
    have hget' : other.get? name = some d' :=
      hother.get?_eq_some_iff.2 ⟨mem_sortedTypes.1 hd', hdd'.name ▸ hname⟩
    rw [hget']
    exact .some hdd'
  | none =>
    cases hget' : other.get? name with
    | none => exact .none
    | some d' =>
      obtain ⟨hmem, hname⟩ := hother.get?_eq_some_iff.1 hget'
      obtain ⟨d, hd, hdd'⟩ := Results.exists_of_mem_right hsorted (mem_sortedTypes.2 hmem)
      have hsome : document.get? name = some d :=
        hkeyed.get?_eq_some_iff.2 ⟨mem_sortedTypes.1 hd, hdd'.name.trans hname⟩
      cases hget.symm.trans hsome

end Reordered

end SchemaDocument

namespace Schema

open Deploy (DirectiveMap)

variable {document other : SchemaDocument} {directives : DirectiveMap} {schema : Schema}

/-- Reordered definitions are registered as the same type. -/
theorem register_eq_of_reordered (h : document.Reordered other) {definition definition' : TypeDef}
    (hd : definition.Reordered definition') :
    register document directives definition = register other directives definition' := by
  have hroot : rootKind? document = rootKind? other := by
    funext name
    rw [rootKind?, rootKind?, h.query, h.mutation, h.subscription]
  obtain ⟨hname, hdescription, huses, hbody⟩ := hd
  rw [register, register, hname, hdescription, huses, hroot]
  generalize definition.body = body, definition'.body = body' at hbody
  cases hbody with
  | same => rfl
  | object => rfl

/-- Reordered documents register the same types. -/
theorem registerAll_eq_of_reordered (h : document.Reordered other)
    (hkeyed : document.KeyedByName) :
    registerAll document directives = registerAll other directives := by
  rw [registerAll, registerAll, Results.mapM_congr (h.sortedTypes hkeyed) fun _ _ hd =>
    register_eq_of_reordered h hd]

/-- Reordered fields are resolved to the same field. -/
theorem objectField_eq_of_reordered (parent : String) {field field' : FieldDef}
    (h : field.Reordered field') :
    objectField schema directives parent field = objectField schema directives parent field' := by
  rw [objectField, objectField, h.name, h.description, h.type, h.directives, h.sorted_arguments]

/-- Reordered documents declare the same input fields. -/
theorem inputFieldDefs?_eq_of_reordered (h : document.Reordered other)
    (hkeyed : document.KeyedByName) (name : String) :
    inputFieldDefs? document name = inputFieldDefs? other name := by
  have hrel := h.get?_rel hkeyed name
  unfold inputFieldDefs?
  generalize document.get? name = d, other.get? name = d' at hrel
  cases hrel with
  | none => rfl
  | @some d d' hd =>
    have hbody := hd.body
    rw [Option.map_some, Option.map_some]
    generalize d.body = body, d'.body = body' at hbody
    cases hbody with
    | same => rfl
    | object => rfl

/-- Reordered documents declare objects with reordered fields. -/
theorem objectFieldDefs?_rel (h : document.Reordered other) (hkeyed : document.KeyedByName)
    (name : String) :
    Option.Rel (List.Forall₂ FieldDef.Reordered) (objectFieldDefs? document name)
      (objectFieldDefs? other name) := by
  have hrel := h.get?_rel hkeyed name
  unfold objectFieldDefs?
  generalize document.get? name = d, other.get? name = d' at hrel
  cases hrel with
  | none => exact .none
  | @some d d' hd =>
    have hbody := hd.body
    rw [Option.map_some, Option.map_some]
    generalize d.body = body, d'.body = body' at hbody
    cases hbody with
    | object hfields => exact .some hfields
    | same body =>
      cases body with
      | object fields => exact .some (List.forall₂_same.2 fun f _ => .refl f)
      | _ => exact .none

/-- Reordered documents fill the same input types. -/
theorem fillInputs_eq_of_reordered (h : document.Reordered other)
    (hkeyed : document.KeyedByName) :
    fillInputs document directives schema = fillInputs other directives schema := by
  have hfill : fillInput document directives schema = fillInput other directives schema := by
    funext t
    rw [fillInput, fillInput, inputFieldDefs?_eq_of_reordered h hkeyed]
  rw [fillInputs, fillInputs, hfill]

/-- Reordered documents declare objects at the same positions, with reordered fields. -/
theorem forall₂_declaredObjects (h : document.Reordered other) (hkeyed : document.KeyedByName) :
    List.Forall₂ (fun declared declared' => declared.1 = declared'.1 ∧
      declared.2.1 = declared'.2.1 ∧ List.Forall₂ FieldDef.Reordered declared.2.2 declared'.2.2)
      (declaredObjects document schema) (declaredObjects other schema) := by
  refine List.rel_filterMap (R := Eq) ?_ (List.forall₂_eq_eq_eq ▸ rfl)
  rintro ⟨t, id⟩ _ rfl
  cases t with
  | object o =>
    have hrel := objectFieldDefs?_rel h hkeyed o.name
    dsimp only [NamedType.object?, Option.bind_some]
    generalize objectFieldDefs? document o.name = defs, objectFieldDefs? other o.name = defs'
      at hrel
    cases hrel with
    | none => exact .none
    | some hdefs => exact .some ⟨rfl, rfl, hdefs⟩
  | _ => exact .none

/-- Reordered documents supply the same objects with the same fields. -/
theorem supplies_eq_of_reordered (h : document.Reordered other) (hkeyed : document.KeyedByName) :
    supplies document directives schema = supplies other directives schema := by
  rw [supplies, supplies]
  refine Results.mapM_congr (forall₂_declaredObjects h hkeyed) ?_
  rintro ⟨id, name, defs⟩ ⟨_, _, defs'⟩ ⟨rfl, rfl, hdefs⟩
  dsimp only at hdefs ⊢
  rw [Results.mapM_congr hdefs fun _ _ => objectField_eq_of_reordered name]

/-- Reordered documents have the same schema, or the same fault. -/
theorem build_eq_of_reordered (h : document.Reordered other) (hkeyed : document.KeyedByName) :
    build document directives = build other directives := by
  rw [build, build, registerAll_eq_of_reordered h hkeyed]
  refine congrArg (registerAll other directives >>= ·) (funext fun registered => ?_)
  rw [fillInputs_eq_of_reordered h hkeyed, supplies_eq_of_reordered h hkeyed]

end Schema

/-- Reordered documents declare the same permissions in the same order. -/
theorem SchemaDocument.Reordered.declaredPermissions {document other : SchemaDocument}
    (h : document.Reordered other) (hkeyed : document.KeyedByName) :
    document.declaredPermissions = other.declaredPermissions := by
  rw [SchemaDocument.declaredPermissions, SchemaDocument.declaredPermissions, List.flatMap_def,
    List.flatMap_def, Results.map_eq_map (h.sortedTypes hkeyed) fun _ _ hd => ?_]
  rw [hd.body.fieldDirectives]

namespace Schema

/-- Where definitions stand under their own names, the order of the definitions and that of the
arguments have no effect: building gives the same schema or the same fault, and the registry is
updated to the same one. -/
theorem build_eq_and_update_eq_of_reordered {document other : SchemaDocument}
    (h : document.Reordered other) (hkeyed : document.KeyedByName)
    (directives : Deploy.DirectiveMap) (registry : Registry) :
    build document directives = build other directives ∧
      registry.update document = registry.update other := by
  refine ⟨build_eq_of_reordered h hkeyed, ?_⟩
  rw [Registry.update, Registry.update, h.declaredPermissions hkeyed]

/-- The use of a directive that grants a permission. -/
def granting (permission : String) : DirectiveUse :=
  ⟨"hasPermissions", Table.ofList [("permissions", .array [.string permission])]⟩

/-- A query root `Q` with a list of objects `A`, before a scalar `I` and `A`; the list has the
arguments `x` and `y`. -/
def queryFirst : SchemaDocument where
  types := Table.ofList
    [("Q", ⟨"Q", none, [], .object [⟨"as", none, .list (.named "A"),
        [⟨"x", none, .named "I", []⟩, ⟨"y", none, .named "I", []⟩], [granting "Q_READ"]⟩]⟩),
      ("I", ⟨"I", none, [], .scalar⟩),
      ("A", ⟨"A", none, [], .object [⟨"i", none, .named "I", [], [granting "A_READ"]⟩]⟩)]
  query := some "Q"
  mutation := none
  subscription := none

/-- The same definitions with the query root at the end and its arguments the other way round. -/
def queryLast : SchemaDocument where
  types := Table.ofList
    [("A", ⟨"A", none, [], .object [⟨"i", none, .named "I", [], [granting "A_READ"]⟩]⟩),
      ("I", ⟨"I", none, [], .scalar⟩),
      ("Q", ⟨"Q", none, [], .object [⟨"as", none, .list (.named "A"),
        [⟨"y", none, .named "I", []⟩, ⟨"x", none, .named "I", []⟩], [granting "Q_READ"]⟩]⟩)]
  query := some "Q"
  mutation := none
  subscription := none

/-- The two documents have the same schema and the same permissions. -/
theorem build_queryFirst_eq_queryLast : queryFirst.Reordered queryLast ∧ queryFirst.KeyedByName ∧
    build queryFirst Table.empty = build queryLast Table.empty ∧
    Registry.empty.update queryFirst = Registry.empty.update queryLast := by
  have hkeyed : queryFirst.KeyedByName := by
    unfold SchemaDocument.KeyedByName
    decide
  have hreordered : queryFirst.Reordered queryLast := by
    refine ⟨rfl, rfl, rfl, queryLast.types.entries.reverse, ?_, List.reverse_perm _⟩
    refine .cons ⟨rfl, rfl, rfl, rfl, .object (.cons ?_ .nil)⟩ (.cons ⟨rfl, rfl, rfl, rfl, .same _⟩
      (.cons ⟨rfl, rfl, rfl, rfl, .same _⟩ .nil))
    exact ⟨rfl, rfl, rfl, rfl, .inr ⟨List.Perm.swap _ _ _, by decide⟩⟩
  exact ⟨hreordered, hkeyed, build_eq_and_update_eq_of_reordered hreordered hkeyed _ _⟩

end Schema

end SignalSchema
