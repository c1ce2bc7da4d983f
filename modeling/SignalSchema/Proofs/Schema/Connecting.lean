import SignalSchema.Proofs.Schema.Marking
import SignalSchema.Schema.Builder

/-!
# Connecting objects

Objects receive their fields one after the other, and marks spread while this goes on. A mark
can reach an object that has no fields yet; the object hands it on when it receives them. The
predicate `Marked seeds` holds of a schema whose marks are right for the part of the graph that
is there so far: what is marked is what can be reached from the seeds, the types that the fields
received so far hold lists of. `Marked.connect` is the step for one object and
`Marked.foldl_connect` the run over all of them. What types look like apart from the marks
is told by `bareAt?_foldl_connect_of_mem` and `map_types_foldl_connect`.
-/

namespace SignalSchema

/-- A type with all marks taken away. -/
def NamedType.withoutMarks : NamedType → NamedType
  | scalar t => scalar { t with isList := false }
  | enum t => enum { t with isList := false }
  | input t => input { t with isList := false }
  | object t => object { t with isList := false, isListItem := false, isEntryPoint := false }

namespace Schema

variable {schema : Schema} {supply : Supply} {seeds : List TypeId} {β : Type}
  {view : NamedType → β}

/-- The type at a position, apart from its marks. -/
def bareAt? (schema : Schema) (id : TypeId) : Option NamedType :=
  (schema.get? id).map NamedType.withoutMarks

/-- The table of the fields that an object is to receive. -/
def Supply.table (supply : Supply) : Table Field :=
  Table.ofList (supply.fields.map fun f => (f.name, f))

/-! ### What marks do not touch -/

/-- A reading of types that sees none of the marks. -/
structure BlindToMarks (view : NamedType → β) : Prop where
  listItem : BlindToMark view
  list : ∀ t, view t.markList = view t
  entryPoint : ∀ t, view (t.mapObject fun o => { o with isEntryPoint := true }) = view t

/-- The fields of an object do not depend on marks. -/
theorem blindToMarks_fields? : BlindToMarks NamedType.fields? where
  listItem := blindToMark_fields?
  list t := by cases t <;> rfl
  entryPoint t := by cases t <;> rfl

/-- A type without its marks does not depend on them. -/
theorem blindToMarks_withoutMarks : BlindToMarks NamedType.withoutMarks where
  listItem t := by cases t <;> rfl
  list t := by cases t <;> rfl
  entryPoint t := by cases t <;> rfl

/-- The fields of the object at a position do not depend on the marks. -/
theorem fieldsAt?_eq_bind_bareAt? (schema : Schema) (id : TypeId) :
    schema.fieldsAt? id = (schema.bareAt? id).bind NamedType.fields? := by
  rw [fieldsAt?, bareAt?, Option.bind_map]
  refine congrArg (schema.get? id).bind (funext fun t => ?_)
  cases t <;> rfl

/-- Marking the types that are held in lists alters nothing but marks. -/
theorem map_types_foldl_markList (hitem : BlindToMark view)
    (hlist : ∀ t : NamedType, view t.markList = view t) (schema : Schema) (held : List TypeId) :
    (held.foldl markList schema).types.map view = schema.types.map view := by
  induction held generalizing schema with
  | nil => rfl
  | cons id rest ih =>
    rw [List.foldl_cons, ih, markList, markListItem, map_types_markPending hitem]
    exact schema.map_types_modify id hlist

/-- Marking entry points alters nothing but marks. -/
theorem map_types_foldl_markEntryPoint (h : ∀ t : NamedType,
      view (t.mapObject fun o => { o with isEntryPoint := true }) = view t)
    (schema : Schema) (targets : List TypeId) :
    (targets.foldl markEntryPoint schema).types.map view = schema.types.map view := by
  induction targets generalizing schema with
  | nil => rfl
  | cons id rest ih =>
    rw [List.foldl_cons, ih]
    exact schema.map_types_modify id h

/-- Noting that a type is held in lists marks no list item by itself. -/
theorem isListItem_modify_markList (schema : Schema) (id : TypeId) :
    (schema.modify id NamedType.markList).isListItem = schema.isListItem :=
  isListItem_eq_of_map_types (schema.map_types_modify id fun t => by cases t <;> rfl)

/-- Noting that a type is held in lists leaves the graph as it is. -/
theorem graph_modify_markList (schema : Schema) (id : TypeId) :
    (schema.modify id NamedType.markList).graph = schema.graph :=
  graph_eq_of_map_types (schema.map_types_modify id blindToMarks_fields?.list)

/-- Entry points are no list items by themselves. -/
theorem isListItem_foldl_markEntryPoint (schema : Schema) (targets : List TypeId) :
    (targets.foldl markEntryPoint schema).isListItem = schema.isListItem :=
  isListItem_eq_of_map_types
    (map_types_foldl_markEntryPoint (fun t => by cases t <;> rfl) schema targets)

/-! ### Receiving fields -/

/-- Receiving fields marks what they hold lists of, and nothing else. -/
theorem isListItem_receive (schema : Schema) (supply : Supply) :
    (schema.receive supply).isListItem = (supply.held.foldl markList schema).isListItem := by
  have hfields : ((supply.held.foldl markList schema).modifyObject supply.id
      (·.withFields supply.fields)).isListItem =
        (supply.held.foldl markList schema).isListItem :=
    isListItem_eq_of_map_types
      ((supply.held.foldl markList schema).map_types_modify _ fun t => by cases t <;> rfl)
  rw [← hfields]
  unfold receive
  dsimp only
  split
  · rw [isListItem_foldl_markEntryPoint]
  · rfl

/-- Receiving fields gives them to one object. -/
theorem bareAt?_receive (schema : Schema) (supply : Supply) (j : TypeId) :
    (schema.receive supply).bareAt? j =
      if supply.id = j then (schema.bareAt? j).map (·.mapObject (·.withFields supply.fields))
      else schema.bareAt? j := by
  have hentries : (schema.receive supply).bareAt? j =
      ((supply.held.foldl markList schema).modifyObject supply.id
        (·.withFields supply.fields)).bareAt? j := by
    unfold receive
    dsimp only
    split
    · exact map_get?_eq_of_map_types
        (map_types_foldl_markEntryPoint blindToMarks_withoutMarks.entryPoint _ _) j
    · rfl
  have hheld : (supply.held.foldl markList schema).bareAt? j = schema.bareAt? j :=
    map_get?_eq_of_map_types (map_types_foldl_markList blindToMarks_withoutMarks.listItem
      blindToMarks_withoutMarks.list schema _) j
  rw [hentries, ← hheld]
  simp only [bareAt?, modifyObject, get?_modify]
  split
  · cases (supply.held.foldl markList schema).get? j with
    | none => rfl
    | some t => cases t <;> rfl
  · rfl

/-- Receiving fields alters nothing but fields and marks. -/
theorem map_types_receive (h : BlindToMarks view)
    (hfields : ∀ (t : NamedType) (fields : List Field),
      view (t.mapObject (·.withFields fields)) = view t)
    (schema : Schema) (supply : Supply) :
    (schema.receive supply).types.map view = schema.types.map view := by
  have hheld := map_types_foldl_markList h.listItem h.list schema supply.held
  have hreceived := (supply.held.foldl markList schema).map_types_modify supply.id
    fun t => hfields t supply.fields
  unfold receive
  dsimp only
  split
  · rw [map_types_foldl_markEntryPoint h.entryPoint]
    exact hreceived.trans hheld
  · exact hreceived.trans hheld

/-- What an object owes after it received its fields: what they lead to if it is marked. -/
def owed (schema : Schema) (supply : Supply) : List TypeId :=
  if (schema.receive supply).isListItem supply.id then
    (schema.receive supply).successors supply.id
  else []

/-- Connecting an object is paying off what it owes. -/
theorem connect_eq (schema : Schema) (supply : Supply) :
    schema.connect supply = (schema.receive supply).markPending (schema.owed supply) := by
  unfold connect owed
  dsimp only
  split
  · rw [foldl_markListItem]
  · rw [markPending_nil]

/-- Connecting an object alters nothing but fields and marks. -/
theorem map_types_connect (h : BlindToMarks view)
    (hfields : ∀ (t : NamedType) (fields : List Field),
      view (t.mapObject (·.withFields fields)) = view t)
    (schema : Schema) (supply : Supply) :
    (schema.connect supply).types.map view = schema.types.map view := by
  rw [connect_eq, map_types_markPending h.listItem, map_types_receive h hfields]

/-- A connected object has its fields, and all other types are as before. -/
theorem bareAt?_connect (schema : Schema) (supply : Supply) (j : TypeId) :
    (schema.connect supply).bareAt? j =
      if supply.id = j then (schema.bareAt? j).map (·.mapObject (·.withFields supply.fields))
      else schema.bareAt? j := by
  rw [connect_eq, ← bareAt?_receive]
  exact map_get?_eq_of_map_types
    (map_types_markPending blindToMarks_withoutMarks.listItem _ _) j

/-- A type that receives fields has them if it is an object. -/
theorem bind_fields?_withFields (t? : Option NamedType) (supply : Supply) :
    (t?.map (·.mapObject (·.withFields supply.fields))).bind NamedType.fields? =
      (t?.bind NamedType.fields?).map fun _ => supply.table := by
  cases t? with
  | none => rfl
  | some t => cases t <;> rfl

/-- Connecting an object leaves alone how types are found. -/
theorem index_connect (schema : Schema) (supply : Supply) :
    (schema.connect supply).index = schema.index := by
  have hheld : ∀ (held : List TypeId) (s : Schema), (held.foldl markList s).index = s.index := by
    intro held
    induction held with
    | nil => exact fun _ => rfl
    | cons id rest ih => exact fun s => (ih _).trans (index_markPending _ _)
  have hentries : ∀ (targets : List TypeId) (s : Schema),
      (targets.foldl markEntryPoint s).index = s.index := by
    intro targets
    induction targets with
    | nil => exact fun _ => rfl
    | cons id rest ih => exact fun s => ih _
  rw [connect_eq, index_markPending]
  unfold receive
  dsimp only
  split
  · exact (hentries _ _).trans (hheld _ _)
  · exact hheld _ _

/-- Only the place of the connected object in the graph is new. -/
theorem graph_connect_of_ne {j : TypeId} (h : supply.id ≠ j) :
    (schema.connect supply).graph j = schema.graph j := by
  rw [graph, fieldsAt?_eq_bind_bareAt?, bareAt?_connect, if_neg h, ← fieldsAt?_eq_bind_bareAt?,
    graph]

/-- Connecting objects makes no new ones and takes none away. -/
theorem isObject_connect (schema : Schema) (supply : Supply) (j : TypeId) :
    (schema.connect supply).isObject j = schema.isObject j := by
  rw [isObject_eq_isSome_graph, isObject_eq_isSome_graph, graph, graph,
    fieldsAt?_eq_bind_bareAt?, bareAt?_connect, fieldsAt?_eq_bind_bareAt?]
  split
  · rw [bind_fields?_withFields, Option.isSome_map, Option.isSome_map, Option.isSome_map]
  · rfl

/-! ### The invariant -/

/-- The marks of a schema are those of the objects that can be reached from the seeds. -/
structure Marked (seeds : List TypeId) (schema : Schema) : Prop where
  /-- No mark is still to be handed on. -/
  closed : Owes schema []
  /-- Every seed is marked. -/
  seed : ∀ a ∈ seeds, schema.isObject a = true → schema.isListItem a = true
  /-- Every mark comes from a seed. -/
  sound : ∀ b, schema.isListItem b = true →
    ∃ a ∈ seeds, schema.isObject a = true ∧ Reaches schema.graph a b

/-- In a schema with the right marks, an object is marked exactly when a seed leads to it. -/
theorem Marked.isListItem_iff (h : Marked seeds schema) (b : TypeId) :
    schema.isListItem b = true ↔
      ∃ a ∈ seeds, schema.isObject a = true ∧ Reaches schema.graph a b := by
  constructor
  · exact h.sound b
  · rintro ⟨a, ha, hao, hab⟩
    exact isListItem_of_reaches h.closed (h.seed a ha hao) hab

/-- A further held type becomes a seed. -/
theorem Marked.markList (h : Marked seeds schema) (id : TypeId) :
    Marked (seeds ++ [id]) (schema.markList id) := by
  have hgraph : (schema.markList id).graph = schema.graph := by
    rw [Schema.markList, markListItem, graph_markPending, graph_modify_markList]
  have hobject : ∀ a, (schema.markList id).isObject a = schema.isObject a := by
    intro a
    rw [isObject_eq_isSome_graph, hgraph, isObject_eq_isSome_graph]
  refine ⟨?_, ?_, ?_⟩
  · apply owes_markPending
    intro a b ha hab
    rw [isListItem_modify_markList] at ha ⊢
    rw [graph_modify_markList] at hab
    exact (h.closed a b ha hab).imp_right fun hb => absurd hb List.not_mem_nil
  · intro a ha hao
    rw [hobject] at hao
    rcases List.mem_append.1 ha with ha | ha
    · apply isListItem_markPending_of_isListItem
      rw [isListItem_modify_markList]
      exact h.seed a ha hao
    · apply isListItem_markPending_of_mem ha
      rwa [isObject_eq_isSome_graph, graph_modify_markList, ← isObject_eq_isSome_graph]
  · intro b hb
    simp only [hobject, hgraph]
    rcases isListItem_markPending_cases hb with hb | ⟨a, ha, hao, hab⟩
    · rw [isListItem_modify_markList] at hb
      obtain ⟨a, ha, hab⟩ := h.sound b hb
      exact ⟨a, List.mem_append_left _ ha, hab⟩
    · rw [isObject_eq_isSome_graph, graph_modify_markList, ← isObject_eq_isSome_graph] at hao
      rw [graph_modify_markList] at hab
      exact ⟨a, List.mem_append_right _ ha, hao, hab⟩

/-- All held types become seeds. -/
theorem Marked.foldl_markList (h : Marked seeds schema) (held : List TypeId) :
    Marked (seeds ++ held) (held.foldl Schema.markList schema) := by
  induction held generalizing schema seeds with
  | nil => simpa using h
  | cons id rest ih =>
    rw [List.foldl_cons, List.append_cons]
    exact ih (h.markList id)

/-- An object that had no fields hands on its marks when it receives them. -/
theorem Marked.connect (h : Marked seeds schema) (hfresh : schema.successors supply.id = []) :
    Marked (seeds ++ supply.held) (schema.connect supply) := by
  have hheld := h.foldl_markList supply.held
  have hmarks := isListItem_receive schema supply
  have hgraph : (schema.connect supply).graph = (schema.receive supply).graph := by
    rw [connect_eq, graph_markPending]
  have hgraph' : (supply.held.foldl Schema.markList schema).graph = schema.graph :=
    graph_eq_of_map_types
      (map_types_foldl_markList blindToMarks_fields?.listItem blindToMarks_fields?.list _ _)
  have hobject : ∀ a, (schema.connect supply).isObject a =
      (supply.held.foldl Schema.markList schema).isObject a := by
    intro a
    rw [isObject_connect, isObject_eq_isSome_graph, ← hgraph', ← isObject_eq_isSome_graph]
  -- Only the object that receives fields leads to more than before, and it led nowhere.
  have hold : ∀ a b, a ≠ supply.id → (Leads (schema.receive supply).graph a b ↔
      Leads (supply.held.foldl Schema.markList schema).graph a b) := by
    intro a b ha
    rw [← hgraph, leads_iff, leads_iff, hobject, successors_eq_getD_graph,
      graph_connect_of_ne (Ne.symm ha), successors_eq_getD_graph, hgraph']
  have hgrows : ∀ a b, Leads (supply.held.foldl Schema.markList schema).graph a b →
      Leads (schema.receive supply).graph a b := by
    intro a b hab
    refine (hold a b ?_).2 hab
    rintro rfl
    rw [hgraph', leads_iff, hfresh] at hab
    exact List.not_mem_nil hab.1
  have hsound : ∀ b, (schema.receive supply).isListItem b = true →
      ∃ a ∈ seeds ++ supply.held, (schema.connect supply).isObject a = true ∧
        Reaches (schema.connect supply).graph a b := by
    intro b hb
    rw [hmarks] at hb
    obtain ⟨a, ha, hao, hab⟩ := hheld.sound b hb
    exact ⟨a, ha, by rwa [hobject], hgraph ▸ Relation.ReflTransGen.mono hgrows a b hab⟩
  refine ⟨?_, ?_, ?_⟩
  · rw [connect_eq]
    apply owes_markPending
    intro a b ha hab
    by_cases haid : a = supply.id
    · subst haid
      exact Or.inr (by rw [owed, if_pos ha, List.append_nil]; exact (leads_iff.1 hab).1)
    · rw [hmarks] at ha ⊢
      exact (hheld.closed a b ha ((hold a b haid).1 hab)).imp_right fun hb =>
        absurd hb List.not_mem_nil
  · intro a ha hao
    rw [connect_eq]
    apply isListItem_markPending_of_isListItem
    rw [hmarks]
    exact hheld.seed a ha (by rwa [← hobject])
  · intro b hb
    rw [connect_eq] at hb
    rcases isListItem_markPending_cases hb with hb | ⟨a, ha, hao, hab⟩
    · exact hsound b hb
    · -- A pending object is one step behind the marked object that received the fields.
      rw [owed] at ha
      split at ha
      case isFalse => exact absurd ha List.not_mem_nil
      case isTrue hid =>
        obtain ⟨c, hc, hco, hcid⟩ := hsound supply.id hid
        refine ⟨c, hc, hco, hcid.trans ?_⟩
        rw [hgraph]
        exact Relation.ReflTransGen.head (leads_iff.2 ⟨ha, hao⟩) hab

/-! ### All objects -/

variable {supplies : List Supply}

/-- The marks are right after all objects have received their fields. -/
theorem Marked.foldl_connect (h : Marked seeds schema) (hids : (supplies.map (·.id)).Nodup)
    (hfresh : ∀ supply ∈ supplies, schema.successors supply.id = []) :
    Marked (seeds ++ supplies.flatMap Supply.held) (supplies.foldl Schema.connect schema) := by
  induction supplies generalizing schema seeds with
  | nil => simpa using h
  | cons supply rest ih =>
    rw [List.map_cons, List.nodup_cons] at hids
    rw [List.foldl_cons, List.flatMap_cons, ← List.append_assoc]
    refine ih (h.connect (hfresh supply List.mem_cons_self)) hids.2 ?_
    intro other hother
    have hne : supply.id ≠ other.id := fun heq => hids.1 (heq ▸ List.mem_map_of_mem hother)
    rw [successors_eq_getD_graph, graph_connect_of_ne hne, ← successors_eq_getD_graph]
    exact hfresh other (List.mem_cons_of_mem _ hother)

/-- What is neither a field nor a mark is the same after all objects were connected. -/
theorem map_types_foldl_connect (h : BlindToMarks view)
    (hfields : ∀ (t : NamedType) (fields : List Field),
      view (t.mapObject (·.withFields fields)) = view t)
    (schema : Schema) (supplies : List Supply) :
    (supplies.foldl connect schema).types.map view = schema.types.map view := by
  induction supplies generalizing schema with
  | nil => rfl
  | cons supply rest ih => rw [List.foldl_cons, ih, map_types_connect h hfields]

/-- A type that is not supplied stays as it is, apart from its marks. -/
theorem bareAt?_foldl_connect_of_notMem {id : TypeId} (hid : id ∉ supplies.map (·.id)) :
    (supplies.foldl Schema.connect schema).bareAt? id = schema.bareAt? id := by
  induction supplies generalizing schema with
  | nil => rfl
  | cons supply rest ih =>
    rw [List.map_cons, List.mem_cons, not_or] at hid
    rw [List.foldl_cons, ih hid.2, bareAt?_connect, if_neg (Ne.symm hid.1)]

/-- After all objects were connected, each has the fields that it was supplied with. -/
theorem bareAt?_foldl_connect_of_mem (hids : (supplies.map (·.id)).Nodup)
    (hmem : supply ∈ supplies) :
    (supplies.foldl Schema.connect schema).bareAt? supply.id =
      (schema.bareAt? supply.id).map (·.mapObject (·.withFields supply.fields)) := by
  induction supplies generalizing schema with
  | nil => exact absurd hmem List.not_mem_nil
  | cons first rest ih =>
    rw [List.map_cons, List.nodup_cons] at hids
    rw [List.foldl_cons]
    rcases List.mem_cons.1 hmem with rfl | hmem
    · rw [bareAt?_foldl_connect_of_notMem hids.1, bareAt?_connect, if_pos rfl]
    · have hne : first.id ≠ supply.id := fun heq => hids.1 (heq ▸ List.mem_map_of_mem hmem)
      rw [ih hids.2 hmem, bareAt?_connect, if_neg hne]

/-- Connecting objects leaves alone how types are found. -/
theorem index_foldl_connect (supplies : List Supply) (schema : Schema) :
    (supplies.foldl Schema.connect schema).index = schema.index := by
  induction supplies generalizing schema with
  | nil => rfl
  | cons supply rest ih => rw [List.foldl_cons, ih, index_connect]

end Schema

end SignalSchema
