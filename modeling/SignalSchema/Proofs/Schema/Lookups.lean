import SignalSchema.Proofs.Schema.Completed
import SignalSchema.Proofs.Schema.Faults

/-!
# Lookups of directives

A field is backed by the directive that is found first among the spellings of its name. What is
found is told without the search, by the absence of earlier spellings (`Finds`). The objects and the
input types of a built schema belong to the declared ones, in the order of their names, and so do
their fields and arguments; each is backed in this way under the name of its definition
(`ObjectType.BackedBy`, `InputType.BackedBy`). Building reads the directives at the keys of these
lookups and nowhere else: `readKeys` lists them, where a lookup that succeeds reads no further key,
and directives that agree on the list have the same schema or the same fault.
-/

namespace SignalSchema

open Deploy (Directive DirectiveMap)

/-! ### What a field is backed by -/

/-- What is found for a field below a prefix: the directive at the first spelling of its name that
has one. -/
structure Finds (directives : DirectiveMap) (above field : String) (found : Option Directive) :
    Prop where
  /-- Nothing is found exactly when no spelling has a directive. -/
  absent : found = none ↔
    ∀ candidate ∈ nameCandidates field, directives.get? (above ++ "_" ++ candidate) = none
  /-- A directive is found when no earlier spelling has one. -/
  earliest : ∀ before candidate after directive,
    nameCandidates field = before ++ candidate :: after →
    (∀ earlier ∈ before, directives.get? (above ++ "_" ++ earlier) = none) →
    directives.get? (above ++ "_" ++ candidate) = some directive → found = some directive

/-- An input field, or an argument, has the name of its definition and is backed by what is found
for it. -/
structure InputField.BackedBy (directives : DirectiveMap) (above : String)
    (definition : InputValueDef) (field : InputField) : Prop where
  name : field.name = definition.name
  deploy : Finds directives above definition.name field.deploy

/-- A field of an object has the name of its definition, and what backs it is found below the name
of the object. A reference to an attribute of the parent that names none gets the first spelling of
the field; apart from this, what is found is not changed. The arguments are entered in the order of
their names and looked up below the same name. -/
structure Field.BackedBy (directives : DirectiveMap) (above : String) (definition : FieldDef)
    (field : Field) : Prop where
  name : field.name = definition.name
  deploy : ∃ found, Finds directives above definition.name found ∧
    (∀ entry, found = some (.parentAttribute entry none) →
      field.deploy = some (.parentAttribute entry (nameCandidates definition.name).head?)) ∧
    ((∀ entry, found ≠ some (.parentAttribute entry none)) → field.deploy = found)
  arguments : Schema.Enters InputField.name (InputField.BackedBy directives above)
    (definition.arguments.mergeSort fun a b => a.name ≤ b.name) field.arguments

/-- An object is backed by the directive at its own name, and its fields, which are entered for the
declared ones, by what is found below it. -/
structure ObjectType.BackedBy (directives : DirectiveMap) (declared : String × List FieldDef)
    (o : ObjectType) : Prop where
  name : o.name = declared.1
  own : o.deploy = directives.get? o.name
  fields : Schema.Enters Field.name (Field.BackedBy directives o.name) declared.2 o.fields

/-- An input type is backed by the directive at its own name, and its fields, which are entered for
the declared ones, by what is found below the name without the suffix `_Input`. -/
structure InputType.BackedBy (directives : DirectiveMap) (declared : String × List InputValueDef)
    (i : InputType) : Prop where
  name : i.name = declared.1
  own : i.deploy = directives.get? i.name
  fields : ∃ above, (i.name = above ++ "_Input" ∨
      i.name = above ∧ ∀ stem, i.name ≠ stem ++ "_Input") ∧
    Schema.Enters InputField.name (InputField.BackedBy directives above) declared.2 i.fields

/-! ### Keys -/

/-- Two maps have the same directives at all keys of a list. -/
def AgreeOn (keys : List String) (directives other : DirectiveMap) : Prop :=
  ∀ key ∈ keys, other.get? key = directives.get? key

/-- The keys that are read of a list when looking for the first one with a directive. -/
def keysToFirst (directives : DirectiveMap) : List String → List String
  | [] => []
  | key :: rest =>
    key :: if (directives.get? key).isSome then [] else keysToFirst directives rest

/-- The keys that are read when a field is looked up below a prefix. -/
def fieldKeys (directives : DirectiveMap) (above field : String) : List String :=
  keysToFirst directives ((nameCandidates field).map fun candidate => above ++ "_" ++ candidate)

/-- The keys that are read for the field of an object and for its arguments. -/
def FieldDef.readKeys (directives : DirectiveMap) (above : String) (field : FieldDef) :
    List String :=
  fieldKeys directives above field.name ++
    field.arguments.flatMap fun argument => fieldKeys directives above argument.name

/-- The keys that are read for a definition of a document. -/
def TypeDef.readKeys (document : SchemaDocument) (directives : DirectiveMap)
    (definition : TypeDef) : List String :=
  match definition.body with
  | .input _ =>
    definition.name :: ((Schema.inputFieldDefs? document definition.name).getD []).flatMap
      fun field => fieldKeys directives (Schema.inputPrefix definition.name) field.name
  | .object _ =>
    definition.name :: ((Schema.objectFieldDefs? document definition.name).getD []).flatMap
      (FieldDef.readKeys directives definition.name)
  | _ => []

/-- The keys that are read when a document is built. -/
def SchemaDocument.readKeys (document : SchemaDocument) (directives : DirectiveMap) :
    List String :=
  document.sortedTypes.flatMap (TypeDef.readKeys document directives)

namespace Schema

variable {document : SchemaDocument} {directives other : DirectiveMap} {base schema : Schema}
  {definition : TypeDef} {above field : String}

/-! ### Lookups find the first spelling -/

/-- Looking up a field finds the directive at the first spelling that has one. -/
theorem finds_findDirective? (directives : DirectiveMap) (above field : String) :
    Finds directives above field (findDirective? directives above field) where
  absent := List.findSome?_eq_none_iff
  earliest before candidate after directive hsplit hbefore hget := by
    rw [findDirective?, hsplit, List.findSome?_append, List.findSome?_eq_none_iff.2 hbefore,
      Option.none_or, List.findSome?_cons, hget]

/-- An input type has the suffix exactly when its name is made of a stem and the suffix. -/
theorem endsWith_inputSuffix_iff (name : String) :
    name.endsWith inputSuffix = true ↔ ∃ stem, name = stem ++ inputSuffix := by
  rw [String.endsWith_eq_endsWith_toSlice, String.Slice.endsWith_string_iff, String.copy_toSlice]
  constructor
  · rintro ⟨stem, hstem⟩
    refine ⟨String.ofList stem, String.toList_inj.1 ?_⟩
    rw [String.toList_append, String.toList_ofList, hstem]
  · rintro ⟨stem, rfl⟩
    rw [String.toList_append]
    exact List.suffix_append _ _

/-- The prefix of an input type is its name without the suffix. -/
theorem inputPrefix_append (stem : String) : inputPrefix (stem ++ inputSuffix) = stem := by
  rw [inputPrefix, if_pos ((endsWith_inputSuffix_iff _).2 ⟨stem, rfl⟩)]
  apply String.toList_inj.1
  rw [String.Slice.toString_eq, String.toList_copy_dropEnd]
  simp [String.toList_append, String.length_toList]

/-- The prefix of an input type is its name without one suffix, or its name where it has none. -/
theorem inputPrefix_spec (name : String) :
    name = inputPrefix name ++ "_Input" ∨
      name = inputPrefix name ∧ ∀ stem, name ≠ stem ++ "_Input" := by
  by_cases hname : ∃ stem, name = stem ++ inputSuffix
  · obtain ⟨stem, rfl⟩ := hname
    rw [inputPrefix_append]
    exact .inl rfl
  · rw [inputPrefix, if_neg (mt (endsWith_inputSuffix_iff name).1 hname)]
    exact .inr ⟨rfl, fun stem hstem => hname ⟨stem, hstem⟩⟩

/-! ### Every type is backed -/

/-- Naming the attribute changes no other directive. -/
theorem nameAttribute_of_ne {d : Directive} (h : ∀ entry, d ≠ .parentAttribute entry none) :
    nameAttribute field d = d := by
  unfold nameAttribute
  split
  · exact absurd rfl (h _)
  · rfl

/-- An input field, or an argument, is backed by what is found for its definition. -/
theorem backedBy_of_inputField {parent : String} {d : InputValueDef} {f : InputField}
    (h : inputField schema directives above parent d = .ok f) : f.BackedBy directives above d := by
  obtain ⟨type, -, h⟩ := Results.bind_eq_ok_iff.1 h
  obtain rfl := Except.ok.inj h
  exact ⟨rfl, finds_findDirective? directives above d.name⟩

/-- A field of an object is backed by what is found for its definition. -/
theorem backedBy_of_objectField {parent : String} {d : FieldDef} {f : Field}
    (h : objectField schema directives parent d = .ok f) : f.BackedBy directives parent d := by
  obtain ⟨type, -, h⟩ := Results.bind_eq_ok_iff.1 h
  obtain ⟨arguments, harguments, h⟩ := Results.bind_eq_ok_iff.1 h
  obtain rfl := Except.ok.inj h
  refine ⟨rfl, ⟨_, finds_findDirective? directives parent d.name, ?_, ?_⟩, arguments, ?_, rfl⟩
  · intro entry hfound
    dsimp only
    rw [hfound]
    rfl
  · intro hfound
    dsimp only
    cases hd : findDirective? directives parent d.name with
    | none => rfl
    | some directive =>
      have hne : ∀ entry, directive ≠ .parentAttribute entry none := fun entry heq =>
        hfound entry (hd.trans (congrArg some heq))
      rw [Option.map_some, nameAttribute_of_ne hne]
  · exact (Results.mapM_eq_ok_iff.1 harguments).imp fun _ _ ha => backedBy_of_inputField ha

/-- An object that is made of its declaration is backed. -/
theorem ObjectMadeOf.backedBy {declared : String × List FieldDef} {o : ObjectType}
    (h : ObjectMadeOf directives base declared o) : o.BackedBy directives declared where
  name := h.name
  own := h.deploy
  fields := h.name ▸ h.fields.imp fun _ _ hd => backedBy_of_objectField hd

/-- An input type that is made of its declaration is backed. -/
theorem InputMadeOf.backedBy {declared : String × List InputValueDef} {i : InputType}
    (h : InputMadeOf directives base declared i) : i.BackedBy directives declared where
  name := h.name
  own := h.deploy
  fields := ⟨inputPrefix declared.1, h.name ▸ inputPrefix_spec declared.1,
    h.fields.imp fun _ _ hd => backedBy_of_inputField hd⟩

/-- The objects and the input types of a built schema are backed by the directives that it was built
with. -/
theorem backedBy_of_build (hkeyed : document.KeyedByName)
    (h : build document directives = .ok schema) :
    List.Forall₂ (fun declared o => o.BackedBy directives declared)
        document.objects schema.objects ∧
      List.Forall₂ (fun declared i => i.BackedBy directives declared)
        document.inputs schema.inputs := by
  obtain ⟨base, hcompleted⟩ := exists_completedFrom hkeyed h
  exact ⟨hcompleted.forall₂_objects.imp fun _ _ hmade => hmade.backedBy,
    hcompleted.forall₂_inputs.imp fun _ _ hmade => hmade.backedBy⟩

/-! ### Building reads no other keys -/

/-- Looking for the first key with a directive reads the keys up to it. -/
theorem findSome?_congr_of_keysToFirst {keys : List String}
    (h : AgreeOn (keysToFirst directives keys) directives other) :
    keys.findSome? other.get? = keys.findSome? directives.get? := by
  induction keys with
  | nil => rfl
  | cons key rest ih =>
    have hkey : other.get? key = directives.get? key := h key List.mem_cons_self
    rw [List.findSome?_cons, List.findSome?_cons, hkey]
    cases hfound : directives.get? key with
    | some directive => rfl
    | none =>
      refine ih fun k hk => h k (List.mem_cons_of_mem _ ?_)
      rw [hfound]
      exact hk

/-- Looking up a field reads its keys. -/
theorem findDirective?_congr (h : AgreeOn (fieldKeys directives above field) directives other) :
    findDirective? other above field = findDirective? directives above field := by
  have hkeys := findSome?_congr_of_keysToFirst h
  rwa [List.findSome?_map, List.findSome?_map] at hkeys

/-- Resolving an input field reads the keys of its lookup. -/
theorem inputField_congr {parent : String} {d : InputValueDef}
    (h : AgreeOn (fieldKeys directives above d.name) directives other) :
    inputField schema other above parent d = inputField schema directives above parent d := by
  rw [inputField, inputField, findDirective?_congr h]

/-- Resolving a field reads the keys of its own lookup and of those of its arguments. -/
theorem objectField_congr {parent : String} {d : FieldDef}
    (h : AgreeOn (d.readKeys directives parent) directives other) :
    objectField schema other parent d = objectField schema directives parent d := by
  have hown : findDirective? other parent d.name = findDirective? directives parent d.name :=
    findDirective?_congr fun key hkey => h key (List.mem_append_left _ hkey)
  have harguments : (d.arguments.mergeSort fun a b => a.name ≤ b.name).mapM
      (inputField schema other parent parent) =
      (d.arguments.mergeSort fun a b => a.name ≤ b.name).mapM
        (inputField schema directives parent parent) :=
    Results.mapM_congr_of_mem fun a ha => inputField_congr fun key hkey =>
      h key (List.mem_append_right _ (List.mem_flatMap.2 ⟨a, List.mem_mergeSort.1 ha, hkey⟩))
  unfold objectField
  dsimp only
  rw [hown, harguments]

/-- Registering an input type or an object reads its own name, registering another type reads
nothing. -/
theorem register_congr (h : AgreeOn (definition.readKeys document directives) directives other) :
    register document other definition = register document directives definition := by
  unfold register
  unfold TypeDef.readKeys at h
  cases hbody : definition.body with
  | input defs =>
    rw [hbody] at h
    dsimp only
    rw [h definition.name List.mem_cons_self]
  | object defs =>
    rw [hbody] at h
    dsimp only
    rw [h definition.name List.mem_cons_self]
  | _ => rfl

section Agreeing

variable (h : AgreeOn (document.readKeys directives) directives other)

include h

/-- Registering reads the keys of the document. -/
theorem registerAll_congr : registerAll document other = registerAll document directives := by
  have htypes : document.sortedTypes.mapM (register document other) =
      document.sortedTypes.mapM (register document directives) :=
    Results.mapM_congr_of_mem fun d hd => register_congr fun key hkey =>
      h key (List.mem_flatMap.2 ⟨d, hd, hkey⟩)
  rw [registerAll, registerAll, htypes]

/-- Filling the input types reads the keys of the document. -/
theorem fillInputs_congr (hbase : registerAll document directives = .ok base) :
    fillInputs document other base = fillInputs document directives base := by
  have hfill : ∀ i, NamedType.input i ∈ base.types →
      fillInput document other base i = fillInput document directives base i := by
    intro i hi
    obtain ⟨d, hd, hr⟩ := Results.exists_of_mem_right (registerAll_eq_ok_iff.1 hbase).1 hi
    obtain ⟨_, hbody⟩ := exists_input_body_of_register hr
    have hname : i.name = d.name := name_of_register hr
    unfold fillInput
    rw [hname]
    cases hdefs : inputFieldDefs? document d.name with
    | none => rfl
    | some defs =>
      have hfields : ∀ f ∈ defs, inputField base other (inputPrefix d.name) d.name f =
          inputField base directives (inputPrefix d.name) d.name f := by
        refine fun f hf => inputField_congr fun key hkey =>
          h key (List.mem_flatMap.2 ⟨d, hd, ?_⟩)
        rw [TypeDef.readKeys, hbody, hdefs]
        exact List.mem_cons_of_mem _ (List.mem_flatMap.2 ⟨f, hf, hkey⟩)
      dsimp only
      rw [Results.mapM_congr_of_mem hfields]
  unfold fillInputs
  rw [Results.mapM_congr_of_mem fun t ht => ?_]
  cases t with
  | input i => exact congrArg (Except.map NamedType.input) (hfill i ht)
  | _ => rfl

/-- Resolving the fields of the objects reads the keys of the document. -/
theorem supplies_congr (hbase : registerAll document directives = .ok base) :
    supplies document other base = supplies document directives base := by
  unfold supplies
  refine Results.mapM_congr_of_mem ?_
  rintro ⟨id, name, defs⟩ hdeclared
  obtain ⟨hobject, hname, hdefs⟩ := mem_declaredObjects_iff.1 hdeclared
  obtain ⟨t, ht, rfl⟩ := Option.map_eq_some_iff.1 hname
  obtain ⟨d, hd, hr⟩ := exists_definition hbase ht
  have hbody : ∃ fields, d.body = .object fields := by
    rw [isObject, objectAt?, ht] at hobject
    cases t with
    | object o => exact exists_object_body_of_register hr
    | _ => cases hobject
  obtain ⟨_, hbody⟩ := hbody
  rw [name_of_register hr] at hdefs ⊢
  have hfields : ∀ f ∈ defs, objectField base other d.name f =
      objectField base directives d.name f := by
    refine fun f hf => objectField_congr fun key hkey =>
      h key (List.mem_flatMap.2 ⟨d, SchemaDocument.mem_sortedTypes.2 hd, ?_⟩)
    rw [TypeDef.readKeys, hbody, objectFieldDefs?_eq_some_iff.2 hdefs]
    exact List.mem_cons_of_mem _ (List.mem_flatMap.2 ⟨f, hf, hkey⟩)
  dsimp only
  rw [Results.mapM_congr_of_mem hfields]

/-- Building reads the keys of the document. -/
theorem build_congr : build document other = build document directives := by
  rw [build, build, registerAll_congr h]
  refine Results.bind_congr_of_ok fun base hbase => ?_
  rw [fillInputs_congr h hbase, supplies_congr h hbase]

end Agreeing

/-- Where the definitions stand under their own names, the objects and the input types of a schema
are backed by the directives at the first spellings of the declared fields; and directives that
agree on the keys which these lookups read give the same schema or the same fault for every
document. -/
theorem backedBy_of_build_and_build_eq (document : SchemaDocument) (directives : DirectiveMap) :
    (document.KeyedByName → ∀ schema, build document directives = .ok schema →
      List.Forall₂ (fun declared o => o.BackedBy directives declared)
          document.objects schema.objects ∧
        List.Forall₂ (fun declared i => i.BackedBy directives declared)
          document.inputs schema.inputs) ∧
    ∀ other, AgreeOn (document.readKeys directives) directives other →
      build document other = build document directives :=
  ⟨fun hkeyed _ hbuild => backedBy_of_build hkeyed hbuild, fun _ hagree => build_congr hagree⟩

/-- A query root with a field `abs` that has an argument, and an input type. -/
def spelledDocument : SchemaDocument where
  types := Table.ofList
    [("A_Input", ⟨"A_Input", none, [], .input [⟨"isOn", none, .named "S", []⟩]⟩),
    ("Q", ⟨"Q", none, [], .object [⟨"abs", none, .named "S",
      [⟨"on", none, .named "A_Input", []⟩], []⟩]⟩),
    ("S", ⟨"S", none, [], .scalar⟩)]
  query := some "Q"
  mutation := none
  subscription := none

/-- Directives for the field as an acronym and for the field of the input type. -/
def acronymDirectives : DirectiveMap :=
  Table.ofList [("Q_ABS", .parentAttribute "Q_ABS" none), ("A_IsOn", .constant "A_IsOn" .null)]

/-- The keys that are read for the document stop at the acronym. -/
theorem readKeys_spelledDocument : spelledDocument.readKeys acronymDirectives =
    ["A_Input", "A_IsOn", "Q", "Q_Abs", "Q_ABS", "Q_On", "Q_ON", "Q_on"] := by
  have hprefix : inputPrefix "A_Input" = "A" := inputPrefix_append "A"
  have hsorted : spelledDocument.sortedTypes = spelledDocument.types.values := by cbv
  have hinput : fieldKeys acronymDirectives "A" "isOn" = ["A_IsOn"] := by cbv
  have hquery : fieldKeys acronymDirectives "Q" "abs" = ["Q_Abs", "Q_ABS"] := by cbv
  have hargument : fieldKeys acronymDirectives "Q" "on" = ["Q_On", "Q_ON", "Q_on"] := by cbv
  rw [SchemaDocument.readKeys, hsorted]
  simp [spelledDocument, Table.values, Table.ofList, Table.insert, Table.put, Table.empty,
    TypeDef.readKeys, FieldDef.readKeys, inputFieldDefs?, objectFieldDefs?, SchemaDocument.get?,
    Table.get?, List.lookup, hprefix, hinput, hquery, hargument]

/-- The document is backed by these directives, and a directive for the field as it is written has
no effect. -/
theorem backedBy_spelledDocument :
    spelledDocument.KeyedByName ∧
    (∃ schema, build spelledDocument acronymDirectives = .ok schema ∧
      schema.types.map NamedType.name = ["A_Input", "Q", "S"] ∧
      List.Forall₂ (fun declared o => o.BackedBy acronymDirectives declared)
        spelledDocument.objects schema.objects ∧
      List.Forall₂ (fun declared i => i.BackedBy acronymDirectives declared)
        spelledDocument.inputs schema.inputs) ∧
    ∃ other, other.get? "Q_abs" ≠ acronymDirectives.get? "Q_abs" ∧
      AgreeOn (spelledDocument.readKeys acronymDirectives) acronymDirectives other ∧
      build spelledDocument other = build spelledDocument acronymDirectives := by
  obtain ⟨hbacked, hcongr⟩ := backedBy_of_build_and_build_eq spelledDocument acronymDirectives
  have hkeyed : spelledDocument.KeyedByName := by
    unfold SchemaDocument.KeyedByName
    decide
  have hfailure : Results.failure? (build spelledDocument acronymDirectives) = none := by
    rw [failure?_build hkeyed]
    cbv
  obtain ⟨schema, hbuild⟩ := Results.failure?_eq_none_iff.1 hfailure
  obtain ⟨base, hcompleted⟩ := exists_completedFrom hkeyed hbuild
  have hnames : schema.types.map NamedType.name = ["A_Input", "Q", "S"] := by
    rw [hcompleted.map_name_types]
    cbv
  have hagree : AgreeOn (spelledDocument.readKeys acronymDirectives) acronymDirectives
      (acronymDirectives.insert "Q_abs" (.constant "Q_abs" .null)) := by
    rw [readKeys_spelledDocument]
    intro key hkey
    rw [Table.get?_insert, if_neg]
    rintro rfl
    revert hkey
    decide
  refine ⟨hkeyed, ⟨schema, hbuild, hnames, hbacked hkeyed schema hbuild⟩, _, ?_, hagree,
    hcongr _ hagree⟩
  have hnone : acronymDirectives.get? "Q_abs" = none := by cbv
  rw [Table.get?_insert, if_pos rfl, hnone]
  exact Option.some_ne_none _

end Schema

end SignalSchema
