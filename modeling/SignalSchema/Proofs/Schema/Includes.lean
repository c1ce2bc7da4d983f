import Mathlib
import SignalSchema.Proofs.Deploy.Nesting
import SignalSchema.Proofs.Schema.Built
import SignalSchema.Schema.Includes

/-!
# Includes of nested bindings

The deploy of a field is a binding or a collection, and the entries of a collection may be
collections again. The includes of a schema list the bindings at most one step below the deploy
of a field (`mem_includes_iff`). These are all bindings as long as no collection of the layer
has a collection among its entries; of the bindings further down, only those are listed whose
path is needed for something else as well (`includes_of_build`).
-/

namespace SignalSchema

open Deploy (Directive DirectiveMap FlatMap)

namespace Deploy.Directive

variable {d : Directive}

/-- Whether the directive is bound to an implementation. -/
def isBinding (d : Directive) : Bool :=
  d.methods?.isSome

/-- No entry of the directive is a collection. -/
def IsFlat (d : Directive) : Prop :=
  ∀ entry ∈ d.entries?.getD [], entry.isCollection = false

instance : DecidablePred IsFlat := fun d =>
  inferInstanceAs (Decidable (∀ entry ∈ d.entries?.getD [], entry.isCollection = false))

/-- The bindings are the directives that have a path. -/
theorem includePath_ne_empty_iff : d.includePath ≠ "" ↔ d.isBinding = true := by
  have hslash : ∀ before after : String, before ++ "/" ++ after ≠ "" := by
    intro before after h
    have hmem : '/' ∈ (before ++ "/" ++ after).toList := by simp
    rw [h] at hmem
    cases hmem
  cases d with
  | interface name =>
    have hne : "franca/" ++ includeName name ≠ "" := hslash "franca" _
    simp [includePath, isBinding, methods?, hne]
  | custom name origin =>
    have hne : Text.lowerFirst origin ++ "/" ++ includeName name ≠ "" := hslash _ _
    simp [includePath, isBinding, methods?, hne]
  | _ => simp [includePath, isBinding, methods?]

/-- A flat directive reaches down one step. -/
theorem IsFlat.atDepth_eq_nil (h : d.IsFlat) (depth : Nat) : d.atDepth (depth + 2) = [] := by
  rw [atDepth, List.flatMap_eq_nil_iff]
  intro entry hentry
  exact atDepth_succ_of_not_isCollection (h entry hentry) depth

end Deploy.Directive

namespace Schema

variable {document : SchemaDocument} {directives : DirectiveMap} {schema : Schema}
  {b d : Directive} {depth : Nat} {path : String} {t : ObjectType} {f : Field}

/-- The bindings so many steps below the deploys of the fields of objects. -/
def bindingsAt (schema : Schema) (depth : Nat) : List Directive :=
  schema.objects.flatMap fun t => t.fields.values.flatMap fun f =>
    f.deploy.toList.flatMap fun d => (d.atDepth depth).filter (·.isBinding)

/-- Some field without a deploy needs the generic list implementation of its object. -/
def NeedsForList (schema : Schema) (path : String) : Prop :=
  ∃ t ∈ schema.objects, ∃ f ∈ t.fields.values, f.deploy = none ∧
    (t.isListItem || f.isList) = true ∧ path = listInclude t.name

/-- A path is needed for a list, or for a binding that is the deploy of a field or an entry of
it. -/
def NeedsDirectly (schema : Schema) (path : String) : Prop :=
  (∃ depth ≤ 1, ∃ b ∈ schema.bindingsAt depth, b.includePath = path) ∨ schema.NeedsForList path

/-- A binding lies so many steps below the schema when it does so below the deploy of a
field. -/
theorem mem_bindingsAt_iff : b ∈ schema.bindingsAt depth ↔
    ∃ t ∈ schema.objects, ∃ f ∈ t.fields.values, ∃ d, f.deploy = some d ∧
      b ∈ d.atDepth depth ∧ b.isBinding = true := by
  simp only [bindingsAt, List.mem_flatMap, List.mem_filter, Option.mem_toList]

/-! ### What is listed -/

/-- The path of a generic list implementation is not empty. -/
theorem listInclude_ne_empty (name : String) : listInclude name ≠ "" := by
  intro h
  have hmem : '/' ∈ (listInclude name).toList := by simp [listInclude]
  rw [h] at hmem
  cases hmem

/-- The includes are the paths that the fields need, without the empty one. -/
theorem mem_includes_iff_fieldIncludes : path ∈ schema.includes ↔
    path ≠ "" ∧ ∃ t ∈ schema.objects, ∃ f ∈ t.fields.values, path ∈ fieldIncludes t f := by
  simp only [includes, List.mem_eraseDups, List.mem_mergeSort, List.mem_filter,
    List.mem_flatMap, decide_eq_true_eq]
  exact and_comm

/-- A field with a deploy needs the paths of its bindings down to the entries of the deploy. -/
theorem mem_fieldIncludes_of_deploy (h : f.deploy = some d) (hpath : path ≠ "") :
    path ∈ fieldIncludes t f ↔
      ∃ depth ≤ 1, ∃ b ∈ d.atDepth depth, b.isBinding = true ∧ b.includePath = path := by
  have hbinding : ∀ b : Directive, b.includePath = path → b.isBinding = true := by
    rintro b rfl
    exact Directive.includePath_ne_empty_iff.1 hpath
  rw [fieldIncludes, h]
  dsimp only
  rw [← Directive.atDepth_one, List.mem_cons, List.mem_map]
  constructor
  · rintro (hself | ⟨b, hb, hentry⟩)
    · exact ⟨0, Nat.zero_le _, d, List.mem_singleton_self d, hbinding d hself.symm, hself.symm⟩
    · exact ⟨1, Nat.le_refl _, b, hb, hbinding b hentry, hentry⟩
  · rintro ⟨depth, hdepth, b, hb, -, hb'⟩
    obtain rfl | rfl := Nat.le_one_iff_eq_zero_or_eq_one.1 hdepth
    · obtain rfl := List.mem_singleton.1 hb
      exact .inl hb'.symm
    · exact .inr ⟨b, hb, hb'⟩

/-- A field without a deploy needs at most the generic list implementation. -/
theorem mem_fieldIncludes_of_no_deploy (h : f.deploy = none) :
    path ∈ fieldIncludes t f ↔
      (t.isListItem || f.isList) = true ∧ path = listInclude t.name := by
  rw [fieldIncludes, h]
  dsimp only
  split
  · rename_i hneed
    rw [List.mem_singleton, hneed]
    simp
  · rename_i hneed
    simp [hneed]

/-- The includes of a schema are the paths that it needs directly. -/
theorem mem_includes_iff : path ∈ schema.includes ↔ schema.NeedsDirectly path := by
  rw [mem_includes_iff_fieldIncludes]
  constructor
  · rintro ⟨hpath, t, ht, f, hf, hmem⟩
    cases hdeploy : f.deploy with
    | some d =>
      obtain ⟨depth, hdepth, b, hb, hbinding, hb'⟩ :=
        (mem_fieldIncludes_of_deploy hdeploy hpath).1 hmem
      exact .inl ⟨depth, hdepth, b,
        mem_bindingsAt_iff.2 ⟨t, ht, f, hf, d, hdeploy, hb, hbinding⟩, hb'⟩
    | none =>
      obtain ⟨hneed, hlist⟩ := (mem_fieldIncludes_of_no_deploy hdeploy).1 hmem
      exact .inr ⟨t, ht, f, hf, hdeploy, hneed, hlist⟩
  · rintro (⟨depth, hdepth, b, hb, rfl⟩ | ⟨t, ht, f, hf, hdeploy, hneed, rfl⟩)
    · obtain ⟨t, ht, f, hf, d, hdeploy, hb, hbinding⟩ := mem_bindingsAt_iff.1 hb
      have hpath := Directive.includePath_ne_empty_iff.2 hbinding
      exact ⟨hpath, t, ht, f, hf, (mem_fieldIncludes_of_deploy hdeploy hpath).2
        ⟨depth, hdepth, b, hb, hbinding, rfl⟩⟩
    · exact ⟨listInclude_ne_empty _, t, ht, f, hf,
        (mem_fieldIncludes_of_no_deploy hdeploy).2 ⟨hneed, rfl⟩⟩

/-! ### Built schemas -/

/-- The deploy of a field is what is found for the field below the name of its object, in which at
most a reference to an attribute of the parent was completed. -/
theorem exists_found_of_deploy (h : build document directives = .ok schema)
    (ht : t ∈ schema.objects) (hf : f ∈ t.fields.values) (hd : f.deploy = some d) :
    ∃ found, findDirective? directives t.name f.name = some found ∧
      d = nameAttribute f.name found := by
  obtain ⟨base, supplies, hbuilt⟩ := exists_builtFrom h
  obtain ⟨defs, -, definition, -, hfield⟩ := hbuilt.exists_fieldDef ht hf
  obtain ⟨type, -, hfield⟩ := Results.bind_eq_ok_iff.1 hfield
  obtain ⟨arguments, -, hfield⟩ := Results.bind_eq_ok_iff.1 hfield
  obtain rfl := Except.ok.inj hfield
  obtain ⟨found, hfound, rfl⟩ := Option.map_eq_some_iff.1 hd
  exact ⟨found, hfound, rfl⟩

/-- What is found for a field is a directive of the layer. -/
theorem exists_directive_of_deploy (h : build document directives = .ok schema)
    (ht : t ∈ schema.objects) (hf : f ∈ t.fields.values) (hd : f.deploy = some d) :
    ∃ d₀ ∈ directives.values, d = nameAttribute f.name d₀ := by
  obtain ⟨d₀, hfound, rfl⟩ := exists_found_of_deploy h ht hf hd
  obtain ⟨candidate, -, hget⟩ := List.exists_of_findSome?_eq_some hfound
  exact ⟨d₀, List.mem_map.2 ⟨_, Table.get?_eq_some_iff.1 hget, rfl⟩, rfl⟩

/-- Completing a reference to an attribute changes no entries. -/
theorem entries?_nameAttribute (field : String) (d : Directive) :
    (nameAttribute field d).entries? = d.entries? := by
  unfold nameAttribute
  split <;> rfl

/-- Under a layer without collections in collections, no binding lies below the entries of a
deploy. -/
theorem bindingsAt_eq_nil_of_flat (h : build document directives = .ok schema)
    (hflat : ∀ d ∈ directives.values, d.IsFlat) (depth : Nat) :
    schema.bindingsAt (depth + 2) = [] := by
  refine List.eq_nil_iff_forall_not_mem.2 fun b hb => ?_
  obtain ⟨t, ht, f, hf, d, hdeploy, hb, -⟩ := mem_bindingsAt_iff.1 hb
  obtain ⟨d₀, hd₀, rfl⟩ := exists_directive_of_deploy h ht hf hdeploy
  have hd : (nameAttribute f.name d₀).IsFlat := by
    rw [Directive.IsFlat, entries?_nameAttribute]
    exact hflat d₀ hd₀
  rw [hd.atDepth_eq_nil depth] at hb
  cases hb

/-- What the includes of a built schema list. They are what is needed directly. They have the paths
of all bindings, however deep, exactly when those below the entries of the deploys are needed
directly as well. Under a layer without collections in collections, they have the paths of all
bindings. -/
theorem includes_of_build (h : build document directives = .ok schema) :
    (∀ path, path ∈ schema.includes ↔ schema.NeedsDirectly path) ∧
    ((∀ depth, ∀ b ∈ schema.bindingsAt depth, b.includePath ∈ schema.includes) ↔
      ∀ depth, ∀ b ∈ schema.bindingsAt (depth + 2), schema.NeedsDirectly b.includePath) ∧
    ((∀ d ∈ directives.values, d.IsFlat) →
      ∀ depth, ∀ b ∈ schema.bindingsAt depth, b.includePath ∈ schema.includes) := by
  have hall : (∀ depth, ∀ b ∈ schema.bindingsAt depth, b.includePath ∈ schema.includes) ↔
      ∀ depth, ∀ b ∈ schema.bindingsAt (depth + 2), schema.NeedsDirectly b.includePath := by
    constructor
    · intro h depth b hb
      exact mem_includes_iff.1 (h (depth + 2) b hb)
    · intro h depth b hb
      refine mem_includes_iff.2 ?_
      match depth with
      | 0 => exact .inl ⟨0, Nat.zero_le _, b, hb, rfl⟩
      | 1 => exact .inl ⟨1, Nat.le_refl _, b, hb, rfl⟩
      | depth + 2 => exact h depth b hb
  refine ⟨fun path => mem_includes_iff, hall, fun hflat => hall.2 fun depth b hb => ?_⟩
  rw [bindingsAt_eq_nil_of_flat h hflat depth] at hb
  cases hb

/-! ### Choices between bindings -/

/-- A payload that binds to an origin. -/
def customOption : Json :=
  .object [(Deploy.Key.custom, .object [("origin", .string "O"), ("methods", .object [])])]

/-- A payload that chooses between a single option. -/
def choiceOf (option : Json) : Json :=
  .object [(Deploy.Key.dispatcher,
    .object [("selector", .string "s"), ("options", .array [option])])]

/-- A layer that deploys `Q.X`. -/
def choiceLayer (payload : Json) : Json :=
  .object [("Q", .object [("X", payload)])]

/-- A document with one field, `Q.X`. -/
def choiceDocument : SchemaDocument where
  types := Table.ofList
    [("Q", ⟨"Q", none, [], .object [⟨"X", none, .named "S", [], []⟩]⟩),
    ("S", ⟨"S", none, [], .scalar⟩)]
  query := some "Q"
  mutation := none
  subscription := none

/-- The schema of the document under a layer, as far as a view of both tells. -/
theorem exists_build_choice {β : Type} {view : DirectiveMap → Schema → β} {payload : Json} {v : β}
    (h : ((DirectiveMap.ofFlatMap (FlatMap.ofTree (choiceLayer payload))).toOption.bind
      fun directives => (build choiceDocument directives).toOption.map (view directives)) =
        some v) :
    ∃ directives schema,
      DirectiveMap.ofFlatMap (FlatMap.ofTree (choiceLayer payload)) = .ok directives ∧
        build choiceDocument directives = .ok schema ∧ view directives schema = v := by
  obtain ⟨directives, hdirectives, h⟩ := Option.bind_eq_some_iff.1 h
  obtain ⟨schema, hschema, rfl⟩ := Option.map_eq_some_iff.1 h
  exact ⟨directives, schema, Results.toOption_eq_some_iff.1 hdirectives,
    Results.toOption_eq_some_iff.1 hschema, rfl⟩

/-- The option of a choice is listed. -/
theorem includes_of_build_choice : ∃ directives schema,
    DirectiveMap.ofFlatMap (FlatMap.ofTree (choiceLayer (choiceOf customOption))) =
        .ok directives ∧
      build choiceDocument directives = .ok schema ∧ (∀ d ∈ directives.values, d.IsFlat) ∧
      ∃ b ∈ schema.bindingsAt 1, b.includePath ∈ schema.includes := by
  have hview : ((DirectiveMap.ofFlatMap
      (FlatMap.ofTree (choiceLayer (choiceOf customOption)))).toOption.bind fun directives =>
        (build choiceDocument directives).toOption.map fun schema =>
          (decide (∀ d ∈ directives.values, d.IsFlat), (schema.bindingsAt 1).length)) =
      some (true, 1) := by cbv
  obtain ⟨directives, schema, hdirectives, hbuild, hview⟩ := exists_build_choice hview
  obtain ⟨hflat, hlength⟩ := Prod.mk.inj hview
  have hflat := of_decide_eq_true hflat
  obtain ⟨b, hb⟩ := List.length_pos_iff_exists_mem.1 (by rw [hlength]; exact Nat.one_pos)
  exact ⟨directives, schema, hdirectives, hbuild, hflat, b, hb,
    (includes_of_build hbuild).2.2 hflat 1 b hb⟩

/-- The option of a choice that is itself an option is not listed. -/
theorem exists_binding_without_include : ∃ directives schema,
    DirectiveMap.ofFlatMap (FlatMap.ofTree (choiceLayer (choiceOf (choiceOf customOption)))) =
        .ok directives ∧
      build choiceDocument directives = .ok schema ∧
      ∃ depth, ∃ b ∈ schema.bindingsAt depth, b.includePath ∉ schema.includes := by
  have hview : ((DirectiveMap.ofFlatMap
      (FlatMap.ofTree (choiceLayer (choiceOf (choiceOf customOption))))).toOption.bind
        fun directives => (build choiceDocument directives).toOption.map fun schema =>
          ((schema.bindingsAt 2).length, schema.includes)) = some (1, []) := by cbv
  obtain ⟨directives, schema, hdirectives, hbuild, hview⟩ := exists_build_choice hview
  obtain ⟨hlength, hincludes⟩ := Prod.mk.inj hview
  obtain ⟨b, hb⟩ := List.length_pos_iff_exists_mem.1 (by rw [hlength]; exact Nat.one_pos)
  refine ⟨directives, schema, hdirectives, hbuild, 2, b, hb, ?_⟩
  rw [hincludes]
  exact List.not_mem_nil

end Schema

end SignalSchema
