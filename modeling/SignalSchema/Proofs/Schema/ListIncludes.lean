import SignalSchema.Proofs.Schema.Includes
import SignalSchema.Proofs.Schema.Remarking

/-!
# Includes of list items

No file is included without need: each of them is that of some binding or the generic list
implementation of an object. The second kind depends on the marks of the objects, and only for
fields without a deploy. To mark an object after a schema was built therefore adds includes and
takes none away, and the ones that it adds belong to the objects that were not marked before
(`mem_includes_markListItem_iff`). Which objects these are is a matter of the graph, since in a
built schema no mark is missing (`newlyMarked_iff`).
-/

namespace SignalSchema

open Deploy (Directive DirectiveMap FlatMap)

/-- Some field of the object has no deploy. -/
def ObjectType.LacksDeploy (t : ObjectType) : Prop :=
  ∃ f ∈ t.fields.values, f.deploy = none

namespace Schema

variable {document : SchemaDocument} {directives : DirectiveMap} {schema : Schema} {id b : TypeId}
  {path : String} {t : ObjectType} {f : Field}

/-! ### Objects and marks -/

/-- The objects of a schema are those at its positions. -/
theorem mem_objects_iff : t ∈ schema.objects ↔ ∃ b, schema.objectAt? b = some t := by
  rw [objects, List.mem_filterMap]
  simp only [List.mem_iff_getElem?, objectAt?, get?, Option.bind_eq_some_iff]
  constructor
  · rintro ⟨named, ⟨b, hb⟩, ht⟩
    exact ⟨b, named, hb, ht⟩
  · rintro ⟨b, named, hb, ht⟩
    exact ⟨named, ⟨b, hb⟩, ht⟩

/-- The mark of a position is that of the object there. -/
theorem isListItem_eq_of_objectAt? (h : schema.objectAt? b = some t) :
    schema.isListItem b = t.isListItem := by
  rw [isListItem, h, Option.any_some]

/-- Marking an object alters at most the marks of objects. -/
theorem objectAt?_markListItem (schema : Schema) (id b : TypeId) :
    (schema.markListItem id).objectAt? b = (schema.objectAt? b).map fun t =>
      { t with isListItem := (schema.markListItem id).isListItem b } := by
  have hget := get?_eq_of_withoutListItem
    (map_types_markPending blindToMark_withoutListItem schema [id]) b
  rw [objectAt?, markListItem, hget, objectAt?]
  cases schema.get? b with
  | none => rfl
  | some t => cases t <;> rfl

/-- The object was not marked before its schema marked the object at a position, and is marked
afterwards. -/
def NewlyMarked (schema : Schema) (id : TypeId) (t : ObjectType) : Prop :=
  ∃ b, schema.objectAt? b = some t ∧ t.isListItem = false ∧
    (schema.markListItem id).isListItem b = true

/-- Where no mark is missing, the newly marked objects are the unmarked ones that can be reached
from the object at the position. -/
theorem newlyMarked_iff (h : Owes schema []) : NewlyMarked schema id t ↔
    ∃ b, schema.objectAt? b = some t ∧ t.isListItem = false ∧ schema.isObject id = true ∧
      Reaches schema.graph id b := by
  refine exists_congr fun b => and_congr_right fun hb => and_congr_right fun hunmarked => ?_
  rw [markListItem, isListItem_markPending_iff (h.mono (List.nil_subset _)),
    isListItem_eq_of_objectAt? hb, hunmarked]
  simp

/-! ### Includes of a marked schema -/

/-- An object that becomes marked needs its list implementation for the fields without a deploy;
apart from this, its fields need what they needed before. -/
theorem mem_fieldIncludes_iff {mark : Bool} (hmark : t.isListItem = true → mark = true) :
    path ∈ fieldIncludes { t with isListItem := mark } f ↔ path ∈ fieldIncludes t f ∨
      (t.isListItem = false ∧ mark = true) ∧ f.deploy = none ∧ path = listInclude t.name := by
  cases hdeploy : f.deploy with
  | some d => simp [fieldIncludes, hdeploy]
  | none =>
    rw [mem_fieldIncludes_of_no_deploy hdeploy, mem_fieldIncludes_of_no_deploy hdeploy]
    dsimp only
    cases hold : t.isListItem with
    | true => simp [hmark hold]
    | false => cases mark <;> cases f.isList <;> simp

/-- Marking an object adds the list implementations of the newly marked objects that have a field
without a deploy, and no other includes. -/
theorem mem_includes_markListItem_iff (schema : Schema) (id : TypeId) :
    path ∈ (schema.markListItem id).includes ↔ path ∈ schema.includes ∨
      ∃ t, NewlyMarked schema id t ∧ t.LacksDeploy ∧ path = listInclude t.name := by
  have hkept : ∀ {b t}, schema.objectAt? b = some t → t.isListItem = true →
      (schema.markListItem id).isListItem b = true := by
    intro b t hb ht
    refine isListItem_markPending_of_isListItem ?_
    rwa [isListItem_eq_of_objectAt? hb]
  simp only [mem_includes_iff_fieldIncludes, mem_objects_iff, objectAt?_markListItem,
    Option.map_eq_some_iff]
  constructor
  · rintro ⟨hpath, _, ⟨b, t, hb, rfl⟩, f, hf, hmem⟩
    rcases (mem_fieldIncludes_iff (hkept hb)).1 hmem with hmem | ⟨⟨hold, hnew⟩, hdeploy, hlist⟩
    · exact .inl ⟨hpath, t, ⟨b, hb⟩, f, hf, hmem⟩
    · exact .inr ⟨t, ⟨b, hb, hold, hnew⟩, ⟨f, hf, hdeploy⟩, hlist⟩
  · rintro (⟨hpath, t, ⟨b, hb⟩, f, hf, hmem⟩ | ⟨t, ⟨b, hb, hold, hnew⟩, ⟨f, hf, hdeploy⟩, rfl⟩)
    · exact ⟨hpath, _, ⟨b, t, hb, rfl⟩, f, hf, (mem_fieldIncludes_iff (hkept hb)).2 (.inl hmem)⟩
    · exact ⟨listInclude_ne_empty _, _, ⟨b, t, hb, rfl⟩, f, hf,
        (mem_fieldIncludes_iff (hkept hb)).2 (.inr ⟨⟨hold, hnew⟩, hdeploy, rfl⟩)⟩

/-! ### Main result -/

/-- The includes of a schema are needed, and those for lists are complete. -/
structure IncludesNeeded (schema : Schema) : Prop where
  /-- An include is that of a binding at some depth of a field's deploy, or it is the list
  implementation of an object with a field without a deploy, where the object is a list item or the
  field a list. -/
  needed : ∀ path ∈ schema.includes,
    (∃ depth, ∃ b ∈ schema.bindingsAt depth, b.includePath = path) ∨ schema.NeedsForList path
  /-- Every list implementation that is needed is included. -/
  lists : ∀ path, schema.NeedsForList path → path ∈ schema.includes
  /-- The empty path of what is no binding is not included. -/
  nonempty : "" ∉ schema.includes

/-- What marking the object at a position does to the includes. -/
structure IncludesGrow (schema : Schema) (id : TypeId) : Prop where
  /-- The list implementations of the newly marked objects with a field without a deploy are
  added. -/
  added : ∀ path, path ∈ (schema.markListItem id).includes ↔ path ∈ schema.includes ∨
    ∃ t, NewlyMarked schema id t ∧ t.LacksDeploy ∧ path = listInclude t.name
  /-- The newly marked objects are the unmarked ones that can be reached from the position. -/
  newly : ∀ t, NewlyMarked schema id t ↔ ∃ b, schema.objectAt? b = some t ∧
    t.isListItem = false ∧ schema.isObject id = true ∧ Reaches schema.graph id b

/-- The includes of any schema are needed. -/
theorem includesNeeded (schema : Schema) : IncludesNeeded schema where
  needed _ hpath :=
    (mem_includes_iff.1 hpath).imp_left fun ⟨depth, _, b, hb, heq⟩ => ⟨depth, b, hb, heq⟩
  lists _ hpath := mem_includes_iff.2 (.inr hpath)
  nonempty hmem := (mem_includes_iff_fieldIncludes.1 hmem).1 rfl

/-- After a schema was built, and however many objects were marked in it since then, its includes
are needed and those for lists are complete, and marking one more object adds exactly the list
implementations of the newly marked objects that have a field without a deploy. -/
theorem includesNeeded_and_includesGrow_of_build (h : build document directives = .ok schema)
    (marks : List TypeId) :
    IncludesNeeded (marks.foldl markListItem schema) ∧
      ∀ id, IncludesGrow (marks.foldl markListItem schema) id := by
  obtain ⟨base, supplies, hbuilt⟩ := exists_builtFrom h
  have hclosed : Owes (marks.foldl markListItem schema) [] := by
    rw [foldl_markListItem]
    exact owes_markPending (hbuilt.marked.closed.mono (List.nil_subset _))
  exact ⟨includesNeeded _, fun id =>
    ⟨fun path => mem_includes_markListItem_iff _ id, fun t => newlyMarked_iff hclosed⟩⟩

/-- A layer that binds the field of the root and none of the ring. -/
def ringLayer : Json :=
  .object [("Q", .object [("A", customOption)])]

/-- At first only the binding is included. To mark `B` marks `A` as well and includes its list
implementation. -/
theorem includesGrow_ringDocument : ∃ directives schema,
    DirectiveMap.ofFlatMap (FlatMap.ofTree ringLayer) = .ok directives ∧
      build ringDocument directives = .ok schema ∧ IncludesNeeded schema ∧ IncludesGrow schema 1 ∧
      "o/q" ∈ schema.includes ∧ "list/a" ∉ schema.includes ∧
      ∃ t, NewlyMarked schema 1 t ∧ t.LacksDeploy ∧ listInclude t.name = "list/a" := by
  -- the paths that the fields need, before and after
  have hview : ((DirectiveMap.ofFlatMap (FlatMap.ofTree ringLayer)).toOption.bind fun directives =>
      (build ringDocument directives).toOption.map fun schema =>
        (schema.objects.flatMap fun t => t.fields.values.flatMap (fieldIncludes t),
          (schema.markListItem 1).objects.flatMap fun t =>
            t.fields.values.flatMap (fieldIncludes t))) =
      some (["o/q"], ["list/a", "list/b", "o/q"]) := by cbv
  have hmem : ∀ (s : Schema) {path : String}, path ≠ "" → (path ∈ s.includes ↔
      path ∈ s.objects.flatMap fun t => t.fields.values.flatMap (fieldIncludes t)) := by
    intro s path hpath
    rw [mem_includes_iff_fieldIncludes, and_iff_right hpath]
    simp only [List.mem_flatMap]
  obtain ⟨directives, hdirectives, hview⟩ := Option.bind_eq_some_iff.1 hview
  obtain ⟨schema, hschema, hview⟩ := Option.map_eq_some_iff.1 hview
  obtain ⟨hbefore, hafter⟩ := Prod.mk.inj hview
  have hbuild := Results.toOption_eq_some_iff.1 hschema
  obtain ⟨hneeded, hgrow⟩ := includesNeeded_and_includesGrow_of_build hbuild []
  have hbound : "o/q" ∈ schema.includes := by
    rw [hmem schema (by decide), hbefore]
    exact List.mem_singleton_self _
  have hold : "list/a" ∉ schema.includes := by
    rw [hmem schema (by decide), hbefore]
    decide
  have hnew : "list/a" ∈ (schema.markListItem 1).includes := by
    rw [hmem _ (by decide), hafter]
    exact List.mem_cons_self
  obtain ⟨t, ht, hlacks, hname⟩ := (((hgrow 1).added "list/a").1 hnew).resolve_left hold
  exact ⟨directives, schema, Results.toOption_eq_some_iff.1 hdirectives, hbuild, hneeded, hgrow 1,
    hbound, hold, t, ht, hlacks, hname.symm⟩

end Schema

end SignalSchema
