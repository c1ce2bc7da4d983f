import SignalSchema.Proofs.Schema.AttributeNames

/-!
# Collected directives

An object shows the directives of its fields in three places: at the fields, in the list of all its
directives, and in the table of its local attributes. They are made at different moments, and the
name of an attribute is filled in between. Yet they agree: the list and the table are read off the
finished fields, and the table is also the one that results from entering each local attribute when
its definition is met, even where several fields share a name (`entries_ofList_filterMap`).
-/

namespace SignalSchema

open Deploy (Directive DirectiveMap)

namespace Table

variable {α β : Type}

/-- An entry with a changed value if a condition on the name holds. -/
def keepIf (keep : String → Bool) (f : α → β) (e : String × α) : Option (String × β) :=
  if keep e.1 then some (e.1, f e.2) else none

/-- A value that is entered under a name that is not kept makes no difference to what is kept. -/
theorem filterMap_put (keep : String → Bool) (f : α → β) (key : String) (v : α)
    (es : List (String × α)) :
    (put key v es).filterMap (keepIf keep f) =
      if keep key then put key (f v) (es.filterMap (keepIf keep f))
      else es.filterMap (keepIf keep f) := by
  induction es with
  | nil => cases hkeep : keep key <;> simp [put, keepIf, hkeep]
  | cons e rest ih =>
    rw [put]
    by_cases hkey : e.1 = key
    · subst hkey
      cases hkeep : keep e.1 <;> simp [put, keepIf, hkeep]
    · rw [if_neg hkey, List.filterMap_cons, ih, List.filterMap_cons]
      cases hkeep : keep e.1 <;> cases hkeep' : keep key <;> simp [put, keepIf, hkeep, hkey]

/-- Keeping entries by their names before or after they are entered gives the same listing. -/
theorem entries_ofList_filterMap (keep : String → Bool) (f : α → β) (es : List (String × α)) :
    (ofList (es.filterMap (keepIf keep f))).entries =
      (ofList es).entries.filterMap (keepIf keep f) := by
  suffices ∀ (t : Table β) (u : Table α), t.entries = u.entries.filterMap (keepIf keep f) →
      ((es.filterMap (keepIf keep f)).foldl (fun t e => t.insert e.1 e.2) t).entries =
        (es.foldl (fun t e => t.insert e.1 e.2) u).entries.filterMap (keepIf keep f) from
    this empty empty rfl
  induction es with
  | nil => exact fun t u h => h
  | cons e rest ih =>
    intro t u h
    have hput := filterMap_put keep f e.1 e.2 u.entries
    rw [List.filterMap_cons, List.foldl_cons]
    cases hkeep : keep e.1 with
    | false =>
      rw [hkeep, if_neg Bool.false_ne_true] at hput
      simp only [keepIf, hkeep, Bool.false_eq_true, if_false]
      exact ih t _ (h.trans hput.symm)
    | true =>
      rw [hkeep, if_pos rfl] at hput
      simp only [keepIf, hkeep, if_true, List.foldl_cons]
      exact ih _ _ (by rw [entries_insert, h, entries_insert, hput])

end Table

/-! ### What is collected -/

/-- A list that is left out where it would be empty. -/
structure ListedUnlessEmpty {α : Type} (xs : List α) (listed : Option (List α)) : Prop where
  absent : listed = none ↔ xs = []
  listed : ∀ ys, listed = some ys → ys = xs

/-- What is to be listed is listed. -/
theorem ListedUnlessEmpty.exists_of_mem {α : Type} {xs : List α} {listed : Option (List α)}
    (h : ListedUnlessEmpty xs listed) {x : α} (hx : x ∈ xs) : ∃ ys, listed = some ys ∧ x ∈ ys := by
  cases hlisted : listed with
  | none =>
    rw [h.absent.1 hlisted] at hx
    cases hx
  | some ys => exact ⟨ys, rfl, h.listed ys hlisted ▸ hx⟩

/-- Whether a directive reads an attribute of the parent. -/
def Deploy.Directive.readsParent : Directive → Bool
  | parentAttribute .. => true
  | _ => false

/-- The type of a field that reads an attribute of the parent. -/
def Field.attributeType? (field : Field) : Option TypeRef :=
  if field.deploy.any Directive.readsParent then some field.type else none

/-- The type of a field that is found to read an attribute of the parent, when its definition is
met. -/
def FieldDef.attributeType? (directives : DirectiveMap) (schema : Schema) (above : String)
    (definition : FieldDef) : Option TypeRef :=
  if (Schema.findDirective? directives above definition.name).any Directive.readsParent then
    (Schema.resolveType schema above definition.type).toOption
  else none

/-- What an object collects about its fields. -/
structure ObjectType.Collects (directives : DirectiveMap) (schema : Schema)
    (definitions : List FieldDef) (o : ObjectType) : Prop where
  /-- All directives are its own and those of its fields in order. -/
  allDeploy : ListedUnlessEmpty (o.deploy.toList ++ o.fields.values.filterMap (·.deploy))
    o.allDeploy
  /-- The local attributes are the fields that read an attribute of the parent, in order, with
  their types. -/
  localAttributes : ListedUnlessEmpty
    (o.fields.entries.filterMap fun e => e.2.attributeType?.map fun type => (e.1, type))
    (o.localAttributes.map Table.entries)
  /-- The local attributes are also those of the definitions, entered one after the other. -/
  met : ListedUnlessEmpty
    (Table.ofList (definitions.filterMap fun d =>
      (d.attributeType? directives schema o.name).map fun type => (d.name, type))).entries
    (o.localAttributes.map Table.entries)
  /-- An attribute whose name was filled in at a field has the same name in the list, and the field
  is a local attribute. -/
  filled : ∀ name f entry, o.fields.get? name = some f →
    Schema.findDirective? directives o.name name = some (.parentAttribute entry none) →
    ∃ first all attributes, (nameCandidates name).head? = some first ∧
      f.deploy = some (.parentAttribute entry (some first)) ∧
      o.allDeploy = some all ∧ .parentAttribute entry (some first) ∈ all ∧
      o.localAttributes = some attributes ∧ attributes.get? name = some f.type

namespace Schema

variable {document : SchemaDocument} {directives : DirectiveMap} {base schema : Schema}
  {parent : String} {fields : Table Field}

/-- A type's own directive and those of its fields are listed unless there are none. -/
theorem listedUnlessEmpty_allDirectives (own : Option Directive)
    (ofFields : List (Option Directive)) :
    ListedUnlessEmpty (own.toList ++ ofFields.filterMap id) (allDirectives own ofFields) := by
  unfold allDirectives
  split
  next hnil => exact ⟨iff_of_true rfl hnil, nofun⟩
  next ds hne => exact ⟨iff_of_false nofun hne, fun ys hys => (Option.some.inj hys).symm⟩

/-- The local attributes are listed in the order of the fields. -/
theorem listedUnlessEmpty_parentAttributes (fields : Table Field) :
    ListedUnlessEmpty
      (fields.entries.filterMap fun e => e.2.attributeType?.map fun type => (e.1, type))
      ((parentAttributes fields).map Table.entries) := by
  have hnodup := (Table.map_fst_filterMap_sublist fields.entries
    fun e => e.2.attributeType?).nodup fields.nodup
  generalize hlisted : (fields.entries.filterMap fun e =>
    e.2.attributeType?.map fun type => (e.1, type)) = listed at hnodup ⊢
  suffices ∀ entries, entries = listed → ListedUnlessEmpty listed
      ((if entries.isEmpty then none else some (Table.ofList entries)).map Table.entries) by
    refine this _ (Eq.trans (List.filterMap_congr ?_) hlisted)
    rintro ⟨name, f⟩ -
    dsimp only
    unfold Field.attributeType?
    cases f.deploy with
    | none => rfl
    | some d => cases d <;> rfl
  rintro _ rfl
  split
  next hnil => exact ⟨iff_of_true rfl (List.isEmpty_iff.1 hnil), nofun⟩
  next hne =>
    rw [Option.map_some, Table.entries_ofList hnodup]
    exact ⟨iff_of_false nofun (mt List.isEmpty_iff.2 hne), fun ys hys => (Option.some.inj hys).symm⟩

/-! ### Fields and their definitions -/

/-- Filling in the name of an attribute does not change whether one is read. -/
theorem readsParent_nameAttribute (field : String) (d : Directive) :
    (nameAttribute field d).readsParent = d.readsParent := by
  cases d with
  | parentAttribute entry target => cases target <;> rfl
  | _ => rfl

/-- A field is backed by what is found for its name, with the name of an attribute filled in. -/
theorem deploy_of_objectField {d : FieldDef} {f : Field}
    (h : objectField base directives parent d = .ok f) :
    f.deploy = (findDirective? directives parent f.name).map (nameAttribute f.name) := by
  obtain ⟨type, -, h⟩ := Results.bind_eq_ok_iff.1 h
  obtain ⟨arguments, -, h⟩ := Results.bind_eq_ok_iff.1 h
  obtain rfl := Except.ok.inj h
  rfl

/-- Whether a field below a name is found to read an attribute of the parent. -/
def findsParent (directives : DirectiveMap) (parent field : String) : Bool :=
  (findDirective? directives parent field).any Directive.readsParent

/-- Whether a field makes a local attribute is decided by its name. -/
theorem map_attributeType?_of_objectField {d : FieldDef} {f : Field}
    (h : objectField base directives parent d = .ok f) :
    (f.attributeType?.map fun type => (f.name, type)) =
      Table.keepIf (findsParent directives parent) Field.type (f.name, f) := by
  rw [Field.attributeType?, deploy_of_objectField h, Table.keepIf, findsParent]
  cases findDirective? directives parent f.name with
  | none => rfl
  | some found =>
    rw [Option.map_some, Option.any_some, Option.any_some, readsParent_nameAttribute]
    split <;> rfl

/-- A definition makes the same local attribute as its field. -/
theorem attributeType?_eq_of_objectField (hlookup : ∀ name, schema.lookup? name = base.lookup? name)
    {d : FieldDef} {f : Field} (h : objectField base directives parent d = .ok f) :
    d.attributeType? directives schema parent = f.attributeType? := by
  have hresolved := objectField_eq_ok h
  rw [FieldDef.attributeType?, Field.attributeType?, deploy_of_objectField h, ← hresolved.name,
    resolveType_congr hlookup, hresolved.type]
  cases findDirective? directives parent f.name with
  | none => rfl
  | some found =>
    rw [Option.map_some, Option.any_some, Option.any_some, readsParent_nameAttribute]
    rfl

/-- The local attributes among the fields of an object are those of its definitions, entered one
after the other. -/
theorem entries_attributes_eq (hlookup : ∀ name, schema.lookup? name = base.lookup? name)
    {defs : List FieldDef} {fields : List Field}
    (h : List.Forall₂ (fun d f => objectField base directives parent d = .ok f) defs fields) :
    (Table.ofList (defs.filterMap fun d =>
      (d.attributeType? directives schema parent).map fun type => (d.name, type))).entries =
      (Table.ofList (fields.map fun f => (f.name, f))).entries.filterMap
        fun e => e.2.attributeType?.map fun type => (e.1, type) := by
  have hdefs : (defs.filterMap fun d =>
      (d.attributeType? directives schema parent).map fun type => (d.name, type)) =
      (fields.map fun f => (f.name, f)).filterMap
        (Table.keepIf (findsParent directives parent) Field.type) := by
    rw [List.filterMap_map]
    refine Results.filterMap_eq_filterMap h fun d f hd => ?_
    rw [attributeType?_eq_of_objectField hlookup hd, ← (objectField_eq_ok hd).name]
    exact map_attributeType?_of_objectField hd
  rw [hdefs, Table.entries_ofList_filterMap]
  refine (List.filterMap_congr fun e he => ?_).symm
  obtain ⟨f, hf, rfl⟩ := List.mem_map.1 (Table.mem_of_mem_entries_ofList he)
  obtain ⟨d, -, hd⟩ := Results.exists_of_mem_right h hf
  exact map_attributeType?_of_objectField hd

/-! ### Built schemas -/

/-- An object that is made of a declaration collects its directives and its local attributes. -/
theorem ObjectMadeOf.collects (hlookup : ∀ name, schema.lookup? name = base.lookup? name)
    {declared : String × List FieldDef} {o : ObjectType}
    (h : ObjectMadeOf directives base declared o) : o.Collects directives schema declared.2 := by
  obtain ⟨fields, hfields, htable⟩ := h.fields
  have hname := h.name
  have hall : ListedUnlessEmpty (o.deploy.toList ++ o.fields.values.filterMap (·.deploy))
      o.allDeploy := by
    have hlisted := listedUnlessEmpty_allDirectives o.deploy (o.fields.values.map (·.deploy))
    rwa [List.filterMap_map, Function.id_comp, ← h.allDeploy] at hlisted
  have hlocal := listedUnlessEmpty_parentAttributes o.fields
  rw [← h.localAttributes] at hlocal
  refine ⟨hall, hlocal, ?_, ?_⟩
  · rw [hname, entries_attributes_eq hlookup hfields, ← htable]
    exact hlocal
  · intro name f entry hget hfound
    rw [hname] at hfound
    have hmem := Table.get?_eq_some_iff.1 hget
    obtain ⟨_, hf, heq⟩ := List.mem_map.1 (Table.mem_of_mem_entries_ofList (htable ▸ hmem))
    obtain ⟨rfl, rfl⟩ := Prod.mk.inj heq.symm
    obtain ⟨d, -, hd⟩ := Results.exists_of_mem_right hfields hf
    obtain ⟨first, rest, hcandidates, hnamed⟩ := nameAttribute_of_lacksAttribute f.name
      (Directive.lacksAttribute_eq_true_iff.2 ⟨entry, rfl⟩)
    have hdeploy : f.deploy = some (.parentAttribute entry (some first)) := by
      rw [deploy_of_objectField hd, hfound, Option.map_some, hnamed, Directive.name]
    have hlisted : .parentAttribute entry (some first) ∈
        o.deploy.toList ++ o.fields.values.filterMap (·.deploy) :=
      List.mem_append_right _ (List.mem_filterMap.2 ⟨f, List.mem_map.2 ⟨_, hmem, rfl⟩, hdeploy⟩)
    have htype : (f.name, f.type) ∈
        o.fields.entries.filterMap fun e => e.2.attributeType?.map fun type => (e.1, type) := by
      refine List.mem_filterMap.2 ⟨_, hmem, ?_⟩
      rw [Field.attributeType?, hdeploy]
      rfl
    obtain ⟨all, hall, hinAll⟩ := hall.exists_of_mem hlisted
    obtain ⟨entries, hentries, hinEntries⟩ := hlocal.exists_of_mem htype
    obtain ⟨attributes, hattributes, rfl⟩ := Option.map_eq_some_iff.1 hentries
    exact ⟨first, all, attributes, by rw [hcandidates, List.head?_cons], hdeploy, hall, hinAll,
      hattributes, Table.get?_eq_some_iff.2 hinEntries⟩

/-- Where definitions stand under their own names, every object of a built schema lists its own
directive and those of its fields, and has as local attributes those of its fields that read an
attribute of the parent; every input type lists its own directive and those of its fields. -/
theorem collects_of_build (hkeyed : document.KeyedByName)
    (h : build document directives = .ok schema) :
    List.Forall₂ (fun declared o => o.name = declared.1 ∧ o.Collects directives schema declared.2)
        document.objects schema.objects ∧
      ∀ i ∈ schema.inputs, ListedUnlessEmpty
        (i.deploy.toList ++ i.fields.values.filterMap (·.deploy)) i.allDeploy := by
  obtain ⟨base, hcompleted⟩ := exists_completedFrom hkeyed h
  constructor
  · exact hcompleted.forall₂_objects.imp fun declared o hmade =>
      ⟨hmade.name, hmade.collects hcompleted.lookup?_eq⟩
  · intro i hi
    obtain ⟨declared, -, hmade⟩ := Results.exists_of_mem_right hcompleted.forall₂_inputs hi
    have hlisted := listedUnlessEmpty_allDirectives i.deploy (i.fields.values.map (·.deploy))
    rwa [List.filterMap_map, Function.id_comp, ← hmade.allDeploy] at hlisted

/-- An object `Q` with two definitions of the field `x`, around a field that nothing backs. -/
def twiceDocument : SchemaDocument where
  types := Table.ofList
    [("Q", ⟨"Q", none, [], .object
        [⟨"x", none, .named "S", [], []⟩, ⟨"y", none, .named "S", [], []⟩,
          ⟨"z", none, .named "S", [], []⟩, ⟨"x", none, .list (.named "S"), [], []⟩]⟩),
      ("S", ⟨"S", none, [], .scalar⟩)]
  query := some "Q"
  mutation := none
  subscription := none

/-- A layer that backs the object, makes `x` an unnamed attribute of the parent and backs `z`. -/
def twiceDirectives : DirectiveMap :=
  Table.ofList [("Q_X", .parentAttribute "Q_X" none), ("Q_Z", .constant "Q_Z" .null),
    ("Q", .constant "Q" .null)]

/-- The attribute is listed with its name in the place of the first definition, and the local
attribute has the type of the last one. -/
theorem collects_twiceDocument : twiceDocument.KeyedByName ∧
    ∃ schema o declared, build twiceDocument twiceDirectives = .ok schema ∧ o ∈ schema.objects ∧
      o.allDeploy = some [.constant "Q" .null, .parentAttribute "Q_X" (some "X"),
        .constant "Q_Z" .null] ∧
      o.localAttributes.map Table.entries = some [("x", .list (.named 1))] ∧
      o.Collects twiceDirectives schema declared := by
  have hkeyed : twiceDocument.KeyedByName := by
    unfold SchemaDocument.KeyedByName
    decide
  have hview : (build twiceDocument twiceDirectives).toOption.map (fun s =>
      s.objects.map fun o => (o.allDeploy, o.localAttributes.map Table.entries)) =
        some [(some [.constant "Q" .null, .parentAttribute "Q_X" (some "X"),
          .constant "Q_Z" .null], some [("x", .list (.named 1))])] := by cbv
  obtain ⟨schema, hbuild, hview⟩ := Option.map_eq_some_iff.1 hview
  have hbuild := Results.toOption_eq_some_iff.1 hbuild
  obtain ⟨o, ho, heq⟩ := List.mem_map.1 (hview ▸ List.mem_singleton_self _)
  obtain ⟨hall, hlocal⟩ := Prod.mk.inj heq
  obtain ⟨declared, -, -, hcollects⟩ :=
    Results.exists_of_mem_right (collects_of_build hkeyed hbuild).1 ho
  exact ⟨hkeyed, schema, o, declared.2, hbuild, ho, hall, hlocal, hcollects⟩

end Schema

end SignalSchema
