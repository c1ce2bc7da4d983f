import Mathlib
import SignalSchema.Proofs.Schema.Built

/-!
# List items of a document

The marks of a built schema, read off the document alone: an object is a list item exactly when
some field of some object holds a list of an object that leads to it
(`isListItem_iff_exists_heldInList`). The order of the names, cycles and references to types
declared later make no difference, because an object that is marked before it has fields hands
the mark on when it receives them. Lists in input types and in arguments do not appear: neither
makes a step of the graph nor a seed.
-/

namespace SignalSchema.Schema

open Deploy (DirectiveMap)

variable {document : SchemaDocument} {directives : DirectiveMap} {base schema : Schema}
  {supplies : List Supply} {supply : Supply} {a b : TypeId} {m n : String}

namespace BuiltFrom

/-- A type is behind some field exactly when some definition refers to its name; a condition on
being a list can be put on both. -/
theorem exists_target_iff (h : BuiltFrom document directives base supplies schema)
    (hkeyed : document.KeyedByName) {defs : List FieldDef} {fields : List Field}
    (hfields : List.Forall₂ (fun d f => objectField base directives n d = .ok f) defs fields)
    (hb : base.nameAt? b = some m) (p : Bool → Prop) :
    (∃ f ∈ fields, p f.isList ∧ f.target = b) ↔
      ∃ d ∈ defs, p d.type.isList ∧ d.type.name = m := by
  have htarget : ∀ {d : FieldDef} {f : Field}, objectField base directives n d = .ok f →
      (f.target = b ↔ d.type.name = m) := by
    intro d f hdf
    have hlookup := (objectField_eq_ok hdf).lookup?_eq
    constructor
    · rintro rfl
      rw [lookup?_eq_some_iff hkeyed h.registered] at hlookup
      exact Option.some.inj (hlookup.symm.trans hb)
    · intro hname
      rw [← lookup?_eq_some_iff hkeyed h.registered, ← hname, hlookup] at hb
      exact Option.some.inj hb
  constructor
  · rintro ⟨f, hf, hp, hfb⟩
    obtain ⟨d, hd, hdf⟩ := Results.exists_of_mem_right hfields hf
    exact ⟨d, hd, (objectField_eq_ok hdf).isList ▸ hp, (htarget hdf).1 hfb⟩
  · rintro ⟨d, hd, hp, hdm⟩
    obtain ⟨f, hf, hdf⟩ := Results.exists_of_mem_left hfields hd
    exact ⟨f, hf, (objectField_eq_ok hdf).isList ▸ hp, (htarget hdf).2 hdm⟩

/-- A type is behind some field of a supplied object exactly when some declared object has a field
that refers to its name; conditions on the object and on being a list can be put on both. -/
theorem exists_supply_target_iff (h : BuiltFrom document directives base supplies schema)
    (hkeyed : document.KeyedByName) (hb : base.nameAt? b = some m) (p : Bool → Prop)
    {q : TypeId → Prop} {r : String → Prop} (hqr : ∀ id name, base.isObject id = true →
      base.nameAt? id = some name → (q id ↔ r name)) :
    (∃ supply ∈ supplies, q supply.id ∧ ∃ f ∈ supply.fields, p f.isList ∧ f.target = b) ↔
      ∃ name defs, document.DeclaresObject name defs ∧ r name ∧
        ∃ d ∈ defs, p d.type.isList ∧ d.type.name = m := by
  constructor
  · rintro ⟨supply, hsupply, hq, hf⟩
    obtain ⟨name, defs, hobject, hname, hdefs, hfields⟩ := exists_declaration h.supplied hsupply
    exact ⟨name, defs, hdefs, (hqr _ _ hobject hname).1 hq,
      (h.exists_target_iff hkeyed hfields hb p).1 hf⟩
  · rintro ⟨name, defs, hdefs, hr, hd⟩
    obtain ⟨definition, hget, -⟩ := id hdefs
    obtain ⟨a, ha⟩ := exists_lookup? hkeyed h.registered hget
    rw [lookup?_eq_some_iff hkeyed h.registered] at ha
    have hobject : base.isObject a = true :=
      (isObject_iff_hasObject hkeyed h.registered ha).2 ⟨defs, hdefs⟩
    obtain ⟨supply, hsupply, rfl, hfields⟩ := exists_supply h.supplied hobject ha hdefs
    exact ⟨supply, hsupply, (hqr _ _ hobject ha).2 hr,
      (h.exists_target_iff hkeyed hfields hb p).2 hd⟩

/-- Where field names are distinct, an object keeps all fields that it is supplied with. -/
theorem values_table (h : BuiltFrom document directives base supplies schema)
    (hdistinct : document.DistinctFields) (hsupply : supply ∈ supplies) :
    supply.table.values = supply.fields := by
  obtain ⟨name, defs, -, -, hdefs, hfields⟩ := exists_declaration h.supplied hsupply
  have hnames : defs.map (·.name) = supply.fields.map (·.name) :=
    Results.map_eq_map hfields fun _ _ hdf => (objectField_eq_ok hdf).name.symm
  have hnodup : (supply.fields.map (·.name)).Nodup := hnames ▸ hdistinct.nodup hdefs
  rw [Table.values, Supply.table, Table.entries_ofList_map hnodup, List.map_map]
  exact List.map_id _

/-- An object with distinct field names leads to what its fields lead to. -/
theorem successors_eq (h : BuiltFrom document directives base supplies schema)
    (hdistinct : document.DistinctFields) (hsupply : supply ∈ supplies) :
    schema.successors supply.id = supply.fields.map (·.target) := by
  rw [successors_eq_getD_graph, graph, h.fields supply hsupply, Option.map_some,
    Option.getD_some, h.values_table hdistinct hsupply]

/-- The steps of the schema's graph are those of the document's. -/
theorem leads_iff_fieldLeads (h : BuiltFrom document directives base supplies schema)
    (hkeyed : document.KeyedByName) (hdistinct : document.DistinctFields)
    (ha : base.nameAt? a = some n) (hb : base.nameAt? b = some m) :
    Leads schema.graph a b ↔ document.FieldLeads n m := by
  rw [leads_iff, h.isObject_eq, isObject_iff_hasObject hkeyed h.registered hb]
  constructor
  · rintro ⟨hsucc, hm⟩
    have hid : a ∈ supplies.map (·.id) := by
      by_contra hid
      rw [successors_eq_getD_graph, graph, h.unsupplied a hid, ← graph,
        ← successors_eq_getD_graph, successors_of_registerAll h.registered] at hsucc
      exact List.not_mem_nil hsucc
    obtain ⟨supply, hsupply, rfl⟩ := List.mem_map.1 hid
    obtain ⟨name, defs, -, hname, hdefs, hfields⟩ := exists_declaration h.supplied hsupply
    obtain rfl : n = name := Option.some.inj (ha.symm.trans hname)
    rw [h.successors_eq hdistinct hsupply] at hsucc
    obtain ⟨f, hf, hfb⟩ := List.mem_map.1 hsucc
    obtain ⟨d, hd, -, hdm⟩ :=
      (h.exists_target_iff hkeyed hfields hb fun _ => True).1 ⟨f, hf, trivial, hfb⟩
    exact ⟨defs, hdefs, ⟨d, hd, hdm⟩, hm⟩
  · rintro ⟨defs, hdefs, ⟨d, hd, hdm⟩, hm⟩
    have hobject : base.isObject a = true :=
      (isObject_iff_hasObject hkeyed h.registered ha).2 ⟨defs, hdefs⟩
    obtain ⟨supply, hsupply, rfl, hfields⟩ := exists_supply h.supplied hobject ha hdefs
    obtain ⟨f, hf, -, hfb⟩ :=
      (h.exists_target_iff hkeyed hfields hb fun _ => True).2 ⟨d, hd, trivial, hdm⟩
    refine ⟨?_, hm⟩
    rw [h.successors_eq hdistinct hsupply]
    exact List.mem_map.2 ⟨f, hf, hfb⟩

/-- The supplied fields hold lists of a type exactly when fields of the document do. -/
theorem mem_held_iff (h : BuiltFrom document directives base supplies schema)
    (hkeyed : document.KeyedByName) (hb : base.nameAt? b = some m) :
    b ∈ supplies.flatMap Supply.held ↔ ∃ name fields, document.DeclaresObject name fields ∧
      ∃ f ∈ fields, f.type.isList = true ∧ f.type.name = m := by
  have hheld : b ∈ supplies.flatMap Supply.held ↔
      ∃ supply ∈ supplies, True ∧ ∃ f ∈ supply.fields, f.isList = true ∧ f.target = b := by
    simp [Supply.held, and_assoc]
  rw [hheld, h.exists_supply_target_iff hkeyed hb (· = true) (r := fun _ => True)
    fun _ _ _ _ => Iff.rfl]
  simp only [true_and]

/-- The seeds of the marks are the objects that fields of the document hold lists of. -/
theorem mem_held_iff_heldInList (h : BuiltFrom document directives base supplies schema)
    (hkeyed : document.KeyedByName) (hb : base.nameAt? b = some m) :
    (b ∈ supplies.flatMap Supply.held ∧ schema.isObject b = true) ↔
      document.HeldInList m := by
  rw [h.isObject_eq, isObject_iff_hasObject hkeyed h.registered hb, h.mem_held_iff hkeyed hb]
  constructor
  · rintro ⟨⟨name, fields, hdeclares, hf⟩, hm⟩
    exact ⟨name, fields, hdeclares, hf, hm⟩
  · rintro ⟨name, fields, hdeclares, hf, hm⟩
    exact ⟨⟨name, fields, hdeclares, hf⟩, hm⟩

/-- What can be reached in the schema can be reached in the document. -/
theorem reachesName_of_reaches (h : BuiltFrom document directives base supplies schema)
    (hkeyed : document.KeyedByName) (hdistinct : document.DistinctFields)
    (hab : Reaches schema.graph a b) (ha : base.nameAt? a = some n)
    (hb : base.nameAt? b = some m) : Relation.ReflTransGen document.FieldLeads n m := by
  induction hab generalizing m with
  | refl =>
    obtain rfl : n = m := Option.some.inj (ha.symm.trans hb)
    exact Relation.ReflTransGen.refl
  | @tail c d hac hcd ih =>
    have hc : (base.nameAt? c).isSome = true := by
      obtain ⟨⟨targets, htargets, -⟩, -⟩ := hcd
      rw [← h.nameAt?_eq, nameAt?, Option.isSome_map]
      cases hget : schema.get? c with
      | none => simp [graph, fieldsAt?, hget] at htargets
      | some t => rfl
    obtain ⟨k, hk⟩ := Option.isSome_iff_exists.1 hc
    exact (ih hk).tail ((h.leads_iff_fieldLeads hkeyed hdistinct hk hb).1 hcd)

/-- What can be reached in the document can be reached in the schema. -/
theorem exists_reaches_of_reachesName (h : BuiltFrom document directives base supplies schema)
    (hkeyed : document.KeyedByName) (hdistinct : document.DistinctFields)
    (hnm : Relation.ReflTransGen document.FieldLeads n m) (ha : base.nameAt? a = some n) :
    ∃ b, base.nameAt? b = some m ∧ Reaches schema.graph a b := by
  induction hnm with
  | refl => exact ⟨a, ha, Relation.ReflTransGen.refl⟩
  | tail _ hkm ih =>
    obtain ⟨c, hc, hac⟩ := ih
    obtain ⟨-, -, -, fields, d, hget, -⟩ := id hkm
    obtain ⟨b, hb⟩ := exists_lookup? hkeyed h.registered hget
    rw [lookup?_eq_some_iff hkeyed h.registered] at hb
    exact ⟨b, hb, hac.tail ((h.leads_iff_fieldLeads hkeyed hdistinct hc hb).2 hkm)⟩

end BuiltFrom

/-- Where definitions stand under their own names and fields have distinct names, an object of a
built schema is a list item exactly when it can be reached, through any number of fields, from an
object that some field holds a list of. -/
theorem isListItem_iff_exists_heldInList (hkeyed : document.KeyedByName)
    (hdistinct : document.DistinctFields) (h : build document directives = .ok schema)
    {t : ObjectType} (ht : t ∈ schema.objects) :
    t.isListItem = true ↔
      ∃ n, document.HeldInList n ∧ Relation.ReflTransGen document.FieldLeads n t.name := by
  obtain ⟨base, supplies, hbuilt⟩ := exists_builtFrom h
  obtain ⟨t', ht', hobject⟩ := List.mem_filterMap.1 ht
  obtain ⟨b, hb⟩ := List.mem_iff_getElem?.1 ht'
  have hat : schema.objectAt? b = some t := by
    rw [objectAt?, get?, hb, Option.bind_some, hobject]
  have hname : base.nameAt? b = some t.name := by
    rw [← hbuilt.nameAt?_eq, nameAt?, get?, hb]
    cases t' with
    | object o => rw [← Option.some.inj hobject]; rfl
    | _ => cases hobject
  have hmark : schema.isListItem b = t.isListItem := by
    rw [isListItem, hat, Option.any_some]
  rw [← hmark, hbuilt.marked.isListItem_iff]
  constructor
  · rintro ⟨a, ha, hao, hab⟩
    have hbase : base.isObject a = true := by rwa [← hbuilt.isObject_eq]
    have hsome : (base.nameAt? a).isSome = true := by
      rw [nameAt?, Option.isSome_map]
      rw [isObject, objectAt?] at hbase
      exact Option.isSome_of_isSome_bind hbase
    obtain ⟨n, hn⟩ := Option.isSome_iff_exists.1 hsome
    exact ⟨n, (hbuilt.mem_held_iff_heldInList hkeyed hn).1 ⟨ha, hao⟩,
      hbuilt.reachesName_of_reaches hkeyed hdistinct hab hn hname⟩
  · rintro ⟨n, hheld, hreach⟩
    obtain ⟨-, -, -, -, fields, d, hget, -⟩ := id hheld
    obtain ⟨a, ha⟩ := exists_lookup? hkeyed hbuilt.registered hget
    have hn : base.nameAt? a = some n := (lookup?_eq_some_iff hkeyed hbuilt.registered).1 ha
    obtain ⟨hmem, hao⟩ := (hbuilt.mem_held_iff_heldInList hkeyed hn).2 hheld
    obtain ⟨b', hb', hab⟩ := hbuilt.exists_reaches_of_reachesName hkeyed hdistinct hreach hn
    rw [← lookup?_eq_some_iff hkeyed hbuilt.registered] at hb' hname
    obtain rfl : b' = b := Option.some.inj (hb'.symm.trans hname)
    exact ⟨a, hmem, hao, hab⟩

/-- Rows `R` that hold lists of seats `S`; seats and doors `D` refer to each other. -/
def rowDocument : SchemaDocument where
  types := Table.ofList
    [("S", ⟨"S", none, [], .object [⟨"d", none, .named "D", [], []⟩]⟩),
      ("D", ⟨"D", none, [], .object [⟨"s", none, .nonNull (.named "S"), [], []⟩]⟩),
      ("R", ⟨"R", none, [], .object
        [⟨"ss", none, .nonNull (.list (.nonNull (.named "S"))), [], []⟩]⟩)]
  query := some "R"
  mutation := none
  subscription := none

/-- The door of a seat that occurs in a list is a list item. -/
theorem isListItem_row_door : rowDocument.KeyedByName ∧ rowDocument.DistinctFields ∧
    ∃ schema t, build rowDocument Table.empty = .ok schema ∧ t ∈ schema.objects ∧
      t.name = "D" ∧ t.isListItem = true ∧
      ∃ n, rowDocument.HeldInList n ∧
        Relation.ReflTransGen rowDocument.FieldLeads n "D" := by
  have hkeyed : rowDocument.KeyedByName := by
    unfold SchemaDocument.KeyedByName
    decide
  have hdistinct : rowDocument.DistinctFields := by
    unfold SchemaDocument.DistinctFields
    decide
  have hmarks : (build rowDocument Table.empty).toOption.map
      (fun s => s.objects.map fun t => (t.name, t.isListItem)) =
        some [("D", true), ("R", false), ("S", true)] := by cbv
  cases hbuild : build rowDocument Table.empty with
  | error fault => simp [hbuild, Except.toOption] at hmarks
  | ok schema =>
    simp only [hbuild, Except.toOption, Option.map_some, Option.some.injEq] at hmarks
    have hdoor : ("D", true) ∈ schema.objects.map fun t => (t.name, t.isListItem) := by
      simp [hmarks]
    obtain ⟨t, ht, heq⟩ := List.mem_map.1 hdoor
    obtain ⟨hname, hitem⟩ := Prod.mk.inj heq
    exact ⟨hkeyed, hdistinct, schema, t, rfl, ht, hname, hitem,
      hname ▸ (isListItem_iff_exists_heldInList hkeyed hdistinct hbuild ht).1 hitem⟩

end SignalSchema.Schema
