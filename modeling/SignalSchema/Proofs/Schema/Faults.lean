import Mathlib
import SignalSchema.Proofs.Schema.Built

/-!
# Faults of documents

A document has a schema unless it declares an interface or a union, or refers to a type that it does
not declare. Which fault is reported when there are several is decided by an order that does not
depend on the order of declaration: interfaces and unions come before all references, and the
references of input types before those of objects (`SchemaDocument.references`). As the types all
have their positions before any reference is resolved, it makes no difference whether a reference
goes to a type with a later name, to its own type or round in a cycle. The main statement is
`build_eq_error_iff`.
-/

namespace SignalSchema

/-- A place at which a document refers to a type. -/
structure Reference where
  /-- The name behind all wrappers. -/
  name : String
  /-- The input type or the object that the reference stands in. -/
  parent : String

/-- The references of a field: its own type, then the types of its arguments by their names. -/
def FieldDef.references (parent : String) (field : FieldDef) : List Reference :=
  ⟨field.type.name, parent⟩ ::
    (field.arguments.mergeSort fun a b => a.name ≤ b.name).map fun a => ⟨a.type.name, parent⟩

/-- The names of the types that the fields of a type and their arguments refer to. -/
def TypeBody.referenceNames : TypeBody → List String
  | input fields => fields.map (·.type.name)
  | object fields => fields.flatMap fun f => f.type.name :: f.arguments.map (·.type.name)
  | _ => []

/-- The definition is an interface or a union, for which there is no place in a schema. -/
def TypeDef.IsUnsupported (definition : TypeDef) : Prop :=
  definition.body = .interface ∨ definition.body = .union

/-- The unsupported definitions are those that become no type. -/
theorem TypeDef.typeKind?_eq_none_iff {definition : TypeDef} :
    definition.body.typeKind? = none ↔ definition.IsUnsupported := by
  unfold IsUnsupported
  cases definition.body <;> simp [TypeBody.typeKind?]

instance : DecidablePred TypeDef.IsUnsupported := fun _ =>
  decidable_of_iff _ TypeDef.typeKind?_eq_none_iff

namespace SchemaDocument

variable {document : SchemaDocument} {definition : TypeDef}

/-- The references of the input types by their names, field by field. -/
def inputReferences (document : SchemaDocument) : List Reference :=
  document.inputs.flatMap fun (name, fields) => fields.map fun f => ⟨f.type.name, name⟩

/-- The references of the objects by their names, field by field. -/
def objectReferences (document : SchemaDocument) : List Reference :=
  document.objects.flatMap fun (name, fields) => fields.flatMap (FieldDef.references name)

/-- All references of a document: those of its input types, then those of its objects. -/
def references (document : SchemaDocument) : List Reference :=
  document.inputReferences ++ document.objectReferences

/-- The references of a document stand in its definitions. -/
theorem exists_mem_referenceNames {r : Reference} (h : r ∈ document.references) :
    ∃ definition ∈ document.types.values, r.name ∈ definition.body.referenceNames := by
  rw [references, List.mem_append] at h
  rcases h with h | h
  · obtain ⟨⟨name, fields⟩, hinput, h⟩ := List.mem_flatMap.1 h
    obtain ⟨definition, hmem, hfields⟩ := List.mem_filterMap.1 hinput
    refine ⟨definition, mem_sortedTypes.1 hmem, ?_⟩
    unfold TypeDef.inputFields? at hfields
    split at hfields
    next fields' hbody =>
      cases hfields
      obtain ⟨f, hf, rfl⟩ := List.mem_map.1 h
      rw [hbody]
      exact List.mem_map_of_mem hf
    next => cases hfields
  · obtain ⟨⟨name, fields⟩, hobject, h⟩ := List.mem_flatMap.1 h
    obtain ⟨definition, hmem, hfields⟩ := List.mem_filterMap.1 hobject
    refine ⟨definition, mem_sortedTypes.1 hmem, ?_⟩
    unfold TypeDef.objectFields? at hfields
    split at hfields
    next fields' hbody =>
      cases hfields
      obtain ⟨f, hf, h⟩ := List.mem_flatMap.1 h
      rw [hbody]
      refine List.mem_flatMap.2 ⟨f, hf, ?_⟩
      rcases List.mem_cons.1 h with rfl | h
      · exact List.mem_cons_self
      · obtain ⟨a, ha, rfl⟩ := List.mem_map.1 h
        exact List.mem_cons_of_mem _ (List.mem_map_of_mem (List.mem_mergeSort.1 ha))
    next => cases hfields

/-- The definition has no place in a schema, and no other such definition comes before it by
name. -/
def FirstUnsupported (document : SchemaDocument) (definition : TypeDef) : Prop :=
  definition ∈ document.types.values ∧ definition.IsUnsupported ∧
    ∀ other ∈ document.types.values, other.IsUnsupported → definition.name ≤ other.name

/-- The reference is the first one to a type that is not declared. -/
def FirstUndeclared (document : SchemaDocument) (reference : Reference) : Prop :=
  ∃ before after, document.references = before ++ reference :: after ∧
    document.declares reference.name = false ∧ ∀ r ∈ before, document.declares r.name = true

/-- The fault of a definition, if it has no place in a schema. -/
def unsupported? (definition : TypeDef) : Option Fault :=
  if definition.body.typeKind?.isSome then none
  else some (.unsupportedType definition.name definition.body.kind)

/-- The fault of a reference, if its type is not declared. -/
def undeclared? (document : SchemaDocument) (reference : Reference) : Option Fault :=
  if document.declares reference.name then none
  else some (.unresolvedType reference.name reference.parent)

/-- The supported definitions have no fault. -/
theorem unsupported?_eq_none_iff : unsupported? definition = none ↔ ¬ definition.IsUnsupported := by
  rw [← TypeDef.typeKind?_eq_none_iff, unsupported?]
  cases definition.body.typeKind? <;> simp

/-- The unsupported definitions are reported with their names and their kinds. -/
theorem unsupported?_eq_some_iff {fault : Fault} : unsupported? definition = some fault ↔
    definition.IsUnsupported ∧ fault = .unsupportedType definition.name definition.body.kind := by
  rw [← TypeDef.typeKind?_eq_none_iff, unsupported?]
  cases definition.body.typeKind? <;> simp [eq_comm]

/-- The fault that is found first in the order of names is that of the first definition by name
without a place in a schema. -/
theorem findSome?_unsupported?_eq_some_iff (hkeyed : document.KeyedByName) {fault : Fault} :
    document.sortedTypes.findSome? unsupported? = some fault ↔
      ∃ d, document.FirstUnsupported d ∧ fault = .unsupportedType d.name d.body.kind := by
  have hascending := hkeyed.ascending
  rw [List.findSome?_eq_some_iff]
  constructor
  · rintro ⟨before, d, after, hsplit, hfault, hbefore⟩
    obtain ⟨hunsupported, rfl⟩ := unsupported?_eq_some_iff.1 hfault
    have hd : d ∈ document.sortedTypes := by simp [hsplit]
    refine ⟨d, ⟨mem_sortedTypes.1 hd, hunsupported, fun other hother hbad => ?_⟩, rfl⟩
    rw [← mem_sortedTypes, hsplit, List.mem_append, List.mem_cons] at hother
    rcases hother with hother | rfl | hother
    · exact absurd hbad (unsupported?_eq_none_iff.1 (hbefore other hother))
    · exact String.le_refl _
    · rw [hsplit, List.pairwise_append] at hascending
      exact (List.rel_of_pairwise_cons hascending.2.1 hother).le
  · rintro ⟨d, ⟨hd, hunsupported, hfirst⟩, rfl⟩
    obtain ⟨before, after, hsplit⟩ := List.append_of_mem (mem_sortedTypes.2 hd)
    refine ⟨before, d, after, hsplit, unsupported?_eq_some_iff.2 ⟨hunsupported, rfl⟩, ?_⟩
    intro other hother
    rw [unsupported?_eq_none_iff]
    intro hbad
    have hmem : other ∈ document.types.values :=
      mem_sortedTypes.1 (hsplit ▸ List.mem_append_left _ hother)
    rw [hsplit, List.pairwise_append] at hascending
    exact absurd (hascending.2.2 other hother d List.mem_cons_self)
      (hfirst other hmem hbad).not_gt

/-- The fault that is found first among the references is that of the first one whose type is not
declared. -/
theorem findSome?_undeclared?_eq_some_iff {fault : Fault} :
    document.references.findSome? document.undeclared? = some fault ↔
      ∃ r, document.FirstUndeclared r ∧ fault = .unresolvedType r.name r.parent := by
  rw [List.findSome?_eq_some_iff]
  constructor
  · rintro ⟨before, r, after, hsplit, hfault, hbefore⟩
    rw [undeclared?] at hfault
    split at hfault
    case isTrue => cases hfault
    case isFalse hr =>
      refine ⟨r, ⟨before, after, hsplit, by simpa using hr, fun r' hr' => ?_⟩,
        (Option.some.inj hfault).symm⟩
      simpa [undeclared?] using hbefore r' hr'
  · rintro ⟨r, ⟨before, after, hsplit, hr, hbefore⟩, rfl⟩
    refine ⟨before, r, after, hsplit, by simp [undeclared?, hr], fun r' hr' => ?_⟩
    simp [undeclared?, hbefore r' hr']

end SchemaDocument

namespace Schema

open Deploy (DirectiveMap)
open Results (failure?)

variable {document : SchemaDocument} {directives : DirectiveMap} {base : Schema}

/-! ### Faults of the steps of building -/

/-- Registration fails with the first definition that has no place in a schema. -/
theorem failure?_registerAll (document : SchemaDocument) (directives : DirectiveMap) :
    failure? (registerAll document directives) =
      document.sortedTypes.findSome? SchemaDocument.unsupported? := by
  have hregister : (fun d => failure? (register document directives d)) =
      SchemaDocument.unsupported? := funext (failure?_register document directives)
  rw [registerAll, Results.failure?_bind_ok, Results.failure?_mapM, hregister]

/-- A reference is resolved if its type is declared, whatever is around the name. -/
theorem failure?_resolveType (hkeyed : document.KeyedByName)
    (h : registerAll document directives = .ok base) (parent : String) (type : TypeExpr) :
    failure? (resolveType base parent type) = document.undeclared? ⟨type.name, parent⟩ := by
  induction type with
  | named name =>
    rw [resolveType, SchemaDocument.undeclared?, TypeExpr.name, ← isSome_lookup?_eq hkeyed h]
    cases base.lookup? name <;> rfl
  | nonNull inner ih => exact (Results.failure?_map _ _).trans ih
  | list inner ih => exact (Results.failure?_map _ _).trans ih

/-- Input fields, or arguments, fail with the first undeclared type in their order. -/
theorem failure?_mapM_inputField (hkeyed : document.KeyedByName)
    (h : registerAll document directives = .ok base) (above parent : String)
    (definitions : List InputValueDef) :
    failure? (definitions.mapM (inputField base directives above parent)) =
      (definitions.map fun d => ⟨d.type.name, parent⟩).findSome? document.undeclared? := by
  have hfield : ∀ d : InputValueDef, failure? (inputField base directives above parent d) =
      document.undeclared? ⟨d.type.name, parent⟩ := by
    intro d
    rw [← failure?_resolveType hkeyed h]
    exact Results.failure?_bind_ok
  rw [Results.failure?_mapM, List.findSome?_map]
  exact congrArg (List.findSome? · definitions) (funext hfield)

/-- A field of an object fails with its first reference to an undeclared type. -/
theorem failure?_objectField (hkeyed : document.KeyedByName)
    (h : registerAll document directives = .ok base) (parent : String) (definition : FieldDef) :
    failure? (objectField base directives parent definition) =
      (definition.references parent).findSome? document.undeclared? := by
  have hfield : failure? (objectField base directives parent definition) = _ :=
    Results.failure?_bind (failure?_resolveType hkeyed h parent definition.type) fun _ _ =>
      Results.failure?_bind_ok.trans (failure?_mapM_inputField hkeyed h parent parent _)
  rw [hfield, FieldDef.references, List.findSome?_cons]
  cases document.undeclared? ⟨definition.type.name, parent⟩ <;> rfl

/-- The input types are filled up to the first reference to an undeclared type. -/
theorem failure?_fillInputs (hkeyed : document.KeyedByName)
    (h : registerAll document directives = .ok base) :
    failure? (fillInputs document directives base) =
      document.inputReferences.findSome? document.undeclared? := by
  rw [fillInputs, Results.failure?_bind_ok, Results.failure?_mapM,
    SchemaDocument.inputReferences, Results.findSome?_flatMap, SchemaDocument.inputs,
    Results.findSome?_filterMap]
  refine (Results.findSome?_congr (forall₂_register hkeyed h) ?_).symm
  rintro d t ⟨hget, hr⟩
  rw [← declaredInputFields?_of_register hget hr, declaredInputFields?]
  cases t with
  | input i =>
    dsimp only [NamedType.input?, Option.bind_some]
    rw [Results.failure?_map, fillInput]
    cases inputFieldDefs? document i.name with
    | none => rfl
    | some defs =>
      exact ((Results.failure?_bind_ok).trans
        (failure?_mapM_inputField hkeyed h (inputPrefix i.name) i.name defs)).symm
  | _ => rfl

/-- The objects are supplied up to the first reference to an undeclared type. -/
theorem failure?_supplies (hkeyed : document.KeyedByName)
    (h : registerAll document directives = .ok base) :
    failure? (supplies document directives base) =
      document.objectReferences.findSome? document.undeclared? := by
  have hobject : ∀ declared : TypeId × String × List FieldDef,
      failure? (do
        let fields ← declared.2.2.mapM (objectField base directives declared.2.1)
        Except.ok (Supply.mk declared.1 fields)) =
      (declared.2.2.flatMap (FieldDef.references declared.2.1)).findSome?
        document.undeclared? := by
    intro declared
    rw [Results.failure?_bind_ok, Results.failure?_mapM, Results.findSome?_flatMap]
    exact congrArg (List.findSome? · declared.2.2) (funext (failure?_objectField hkeyed h _))
  rw [supplies, Results.failure?_mapM, SchemaDocument.objectReferences,
    Results.findSome?_flatMap, ← map_snd_declaredObjects hkeyed h, List.findSome?_map]
  exact congrArg (List.findSome? · _) (funext hobject)

/-- Building fails with the first unsupported definition by name, or else with the first
reference to an undeclared type. -/
theorem failure?_build (hkeyed : document.KeyedByName) (directives : DirectiveMap) :
    failure? (build document directives) =
      (document.sortedTypes.findSome? SchemaDocument.unsupported?).or
        (document.references.findSome? document.undeclared?) := by
  have hreferences : ∀ base, registerAll document directives = .ok base →
      failure? (do
        let schema ← fillInputs document directives base
        let supplies ← supplies document directives base
        Except.ok (supplies.foldl connect schema)) =
      document.references.findSome? document.undeclared? := by
    intro base hbase
    rw [SchemaDocument.references, List.findSome?_append]
    exact Results.failure?_bind (failure?_fillInputs hkeyed hbase) fun _ _ =>
      Results.failure?_bind_ok.trans (failure?_supplies hkeyed hbase)
  exact Results.failure?_bind (failure?_registerAll document directives) hreferences

/-- Building succeeds where there are no interfaces and unions and all references are to declared
types. -/
theorem exists_build_eq_ok (hkeyed : document.KeyedByName)
    (h : ∀ d ∈ document.types.values, ¬ d.IsUnsupported ∧
      ∀ name ∈ d.body.referenceNames, document.declares name = true)
    (directives : DirectiveMap) : ∃ schema, build document directives = .ok schema := by
  rw [← Results.failure?_eq_none_iff, failure?_build hkeyed, Option.or_eq_none_iff,
    List.findSome?_eq_none_iff, List.findSome?_eq_none_iff]
  constructor
  · intro d hd
    exact SchemaDocument.unsupported?_eq_none_iff.2 (h d (SchemaDocument.mem_sortedTypes.1 hd)).1
  · intro r hr
    obtain ⟨d, hd, hname⟩ := SchemaDocument.exists_mem_referenceNames hr
    rw [SchemaDocument.undeclared?, if_pos ((h d hd).2 _ hname)]

/-! ### The fault of a document -/

/-- When and how building a schema fails, where definitions stand under their own names. If there
are interfaces or unions, the first one by name is reported. Otherwise, it is the first reference
to a type that is not declared, with the type that it stands in. If there is neither, building
succeeds. -/
theorem build_eq_error_iff (hkeyed : document.KeyedByName) (directives : DirectiveMap) :
    (∀ fault, build document directives = .error fault ↔
      (∃ d, document.FirstUnsupported d ∧ fault = .unsupportedType d.name d.body.kind) ∨
      (∀ d ∈ document.types.values, ¬ d.IsUnsupported) ∧
        ∃ r, document.FirstUndeclared r ∧ fault = .unresolvedType r.name r.parent) ∧
    ((∃ schema, build document directives = .ok schema) ↔
      (∀ d ∈ document.types.values, ¬ d.IsUnsupported) ∧
        ∀ r ∈ document.references, document.declares r.name = true) := by
  have hsupported : document.sortedTypes.findSome? SchemaDocument.unsupported? = none ↔
      ∀ d ∈ document.types.values, ¬ d.IsUnsupported := by
    simp only [List.findSome?_eq_none_iff, SchemaDocument.mem_sortedTypes,
      SchemaDocument.unsupported?_eq_none_iff]
  constructor
  · intro fault
    rw [← Results.failure?_eq_some_iff, failure?_build hkeyed, Option.or_eq_some_iff, hsupported,
      SchemaDocument.findSome?_unsupported?_eq_some_iff hkeyed,
      SchemaDocument.findSome?_undeclared?_eq_some_iff]
  · rw [← Results.failure?_eq_none_iff, failure?_build hkeyed, Option.or_eq_none_iff, hsupported,
      List.findSome?_eq_none_iff]
    simp [SchemaDocument.undeclared?]

/-- An object `A` and an input type `B_Input` that refer to undeclared types, the object in an
argument of a field that refers to itself. -/
def faultyDocument : SchemaDocument where
  types := Table.ofList
    [("A", ⟨"A", none, [], .object
        [⟨"a", none, .list (.named "A"), [⟨"x", none, .named "X", []⟩], []⟩]⟩),
      ("B_Input", ⟨"B_Input", none, [], .input
        [⟨"b", none, .named "B_Input", []⟩, ⟨"y", none, .nonNull (.named "Y"), []⟩]⟩)]
  query := some "A"
  mutation := none
  subscription := none

/-- The input type is reported, although its name comes after that of the object. -/
theorem build_faultyDocument : faultyDocument.KeyedByName ∧
    build faultyDocument Table.empty = .error (.unresolvedType "Y" "B_Input") := by
  have hkeyed : faultyDocument.KeyedByName := by
    unfold SchemaDocument.KeyedByName
    decide
  have hsupported : ∀ d ∈ faultyDocument.types.values, ¬ d.IsUnsupported := by decide
  have hreferences : faultyDocument.references =
      [⟨"B_Input", "B_Input"⟩, ⟨"Y", "B_Input"⟩, ⟨"A", "A"⟩, ⟨"X", "A"⟩] := by
    cbv
  have hfirst : faultyDocument.FirstUndeclared ⟨"Y", "B_Input"⟩ := by
    refine ⟨[⟨"B_Input", "B_Input"⟩], [⟨"A", "A"⟩, ⟨"X", "A"⟩], hreferences, by decide, ?_⟩
    decide
  exact ⟨hkeyed, ((build_eq_error_iff hkeyed Table.empty).1 _).2
    (.inr ⟨hsupported, _, hfirst, rfl⟩)⟩

end Schema

end SignalSchema
