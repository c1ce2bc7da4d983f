import SignalSchema.Proofs.Schema.Completed
import SignalSchema.Proofs.Schema.ListItem

/-!
# Flags of types

Two flags of a type are raised by the fields of objects: that some field holds a list of the type,
and, at an object, that a field of the query root leads to it. They are raised while the objects are
connected, at types that may or may not have had their turn. No step takes a flag back, and what a
step raises does not depend on which flags there are, so that a run raises what its steps raise
taken together (`Raises.foldl`), in whatever order. `flagged_of_build` reads off the document which
flags these are.
-/

namespace SignalSchema

namespace NamedType

/-- Whether a type is an object that a field of the query root leads to. -/
def isEntryPoint (t : NamedType) : Bool :=
  t.object?.any (·.isEntryPoint)

/-- Whether a type is the object that serves queries. -/
def servesQueries (t : NamedType) : Bool :=
  t.object?.any (·.root == some .query)

end NamedType

namespace Schema

open Deploy (DirectiveMap)

variable {document : SchemaDocument} {directives : DirectiveMap} {base filled schema : Schema}
  {s s' s'' : Schema} {supplies : List Supply} {supply : Supply} {p : NamedType → Bool}

/-- Whether there is a type at a position that satisfies a condition. -/
def anyAt (schema : Schema) (id : TypeId) (p : NamedType → Bool) : Bool :=
  (schema.get? id).any p

/-- A condition that holds of the same types holds at the same positions. -/
theorem anyAt_eq_of_map_types (h : s'.types.map p = s.types.map p) (id : TypeId) :
    s'.anyAt id p = s.anyAt id p := by
  have hany : ∀ s : Schema, s.anyAt id p = ((s.get? id).map p).getD false := by
    intro s
    rw [anyAt]
    cases s.get? id <;> rfl
  rw [hany, hany, map_get?_eq_of_map_types h]

/-- The query root is at the position of a type that serves queries. -/
theorem isQueryRoot_eq_anyAt (schema : Schema) (id : TypeId) :
    schema.isQueryRoot id = schema.anyAt id NamedType.servesQueries := by
  unfold isQueryRoot objectAt? anyAt
  cases schema.get? id <;> rfl

/-! ### Raising a flag -/

/-- A flag: how it is read off a type, and which types can have it. -/
structure Flag where
  shows : NamedType → Bool
  admits : NamedType → Bool

namespace Flag

/-- What is to be known of a type about a flag. -/
def view (flag : Flag) (t : NamedType) : Bool × Bool :=
  (flag.shows t, flag.admits t)

/-- That some field of an object holds a list of the type. -/
def list : Flag where
  shows := NamedType.isList
  admits _ := true

/-- That a field of the query root leads to the object. -/
def entryPoint : Flag where
  shows := NamedType.isEntryPoint
  admits t := t.object?.isSome

end Flag

variable {flag : Flag} {ids ids' : List TypeId}

/-- What a step does that raises a flag at some positions: afterwards a type shows the flag if it
did before, or if it is at one of the positions and can have the flag. -/
structure Raises (flag : Flag) (ids : List TypeId) (s s' : Schema) : Prop where
  shows : ∀ id, s'.anyAt id flag.shows = true ↔
    s.anyAt id flag.shows = true ∨ id ∈ ids ∧ s.anyAt id flag.admits = true
  admits : ∀ id, s'.anyAt id flag.admits = s.anyAt id flag.admits

namespace Raises

/-- A step that alters neither what types show nor what they can have raises nothing. -/
theorem of_map_types (h : s'.types.map flag.view = s.types.map flag.view) :
    Raises flag [] s s' where
  shows id := by
    have hshows := congrArg (List.map Prod.fst) h
    rw [List.map_map, List.map_map] at hshows
    have hany : s'.anyAt id flag.shows = s.anyAt id flag.shows := anyAt_eq_of_map_types hshows id
    rw [hany, or_iff_left (fun hmem => List.not_mem_nil hmem.1)]
  admits id := by
    have hadmits := congrArg (List.map Prod.snd) h
    rw [List.map_map, List.map_map] at hadmits
    exact anyAt_eq_of_map_types hadmits id

/-- A step at one type raises the flag there if it sets it wherever the type can have it. -/
theorem modify {f : NamedType → NamedType}
    (hshows : ∀ t, flag.shows (f t) = (flag.shows t || flag.admits t))
    (hadmits : ∀ t, flag.admits (f t) = flag.admits t) (s : Schema) (id : TypeId) :
    Raises flag [id] s (s.modify id f) where
  shows j := by
    rw [anyAt, anyAt, anyAt, get?_modify, List.mem_singleton]
    split
    next hj => cases s.get? j <;> simp [hshows, hj]
    next hj => simp [Ne.symm hj]
  admits := anyAt_eq_of_map_types (s.map_types_modify id hadmits)

/-- If no type showed the flag before, a type that can have it shows it exactly where it is
raised. -/
theorem shows_iff_mem {id : TypeId} {t : NamedType} (h : Raises flag ids s s')
    (hnone : s.anyAt id flag.shows = false) (ht : s'.get? id = some t)
    (hadmits : flag.admits t = true) : flag.shows t = true ↔ id ∈ ids := by
  have hshows := h.shows id
  rwa [hnone, ← h.admits, anyAt, anyAt, ht, Option.any_some, Option.any_some,
    and_iff_left hadmits, or_iff_right Bool.false_ne_true] at hshows

/-- Two steps raise what each of them raises. -/
theorem trans (h : Raises flag ids s s') (h' : Raises flag ids' s' s'') :
    Raises flag (ids ++ ids') s s'' where
  shows id := by
    rw [h'.shows, h.shows, h.admits, List.mem_append, or_and_right, or_assoc]
  admits id := (h'.admits id).trans (h.admits id)

/-- A step that raises nothing can come after another one. -/
theorem before (h : Raises flag ids s s') (h' : Raises flag [] s' s'') : Raises flag ids s s'' := by
  simpa using h.trans h'

/-- A run raises what its steps raise, as long as an invariant holds that these depend on. -/
theorem foldl {α : Type} {act : Schema → α → Schema} {raised : α → List TypeId}
    (inv : Schema → Prop) (hact : ∀ s a, inv s → Raises flag (raised a) s (act s a))
    (hinv : ∀ s a, inv s → inv (act s a)) (hs : inv s) (as : List α) :
    Raises flag (as.flatMap raised) s (as.foldl act s) := by
  induction as generalizing s with
  | nil => exact of_map_types rfl
  | cons a rest ih =>
    rw [List.flatMap_cons, List.foldl_cons]
    exact (hact s a hs).trans (ih (hinv s a hs))

/-- A run of steps that raise the flag at one position each raises it at all of them. -/
theorem foldl_singleton {act : Schema → TypeId → Schema}
    (hact : ∀ s id, Raises flag [id] s (act s id)) (s : Schema) (ids : List TypeId) :
    Raises flag ids s (ids.foldl act s) := by
  have h := foldl (fun _ => True) (fun s id _ => hact s id) (fun _ _ _ => trivial)
    (s := s) trivial ids
  rwa [List.flatMap_singleton'] at h

end Raises

/-! ### Connecting objects -/

/-- The types that a field of the object leads to if the object is the query root. -/
def entered (schema : Schema) (supply : Supply) : List TypeId :=
  if schema.isQueryRoot supply.id then supply.table.values.map (·.target) else []

/-- Serving queries has nothing to do with marks. -/
theorem blindToMarks_servesQueries : BlindToMarks NamedType.servesQueries := by
  constructor <;> intro t <;> cases t <;> rfl

/-- A connected schema has its query root where it was. -/
theorem isQueryRoot_connect (s : Schema) (supply : Supply) (id : TypeId) :
    (s.connect supply).isQueryRoot id = s.isQueryRoot id := by
  rw [isQueryRoot_eq_anyAt, isQueryRoot_eq_anyAt]
  exact anyAt_eq_of_map_types
    (map_types_connect blindToMarks_servesQueries (fun t _ => by cases t <;> rfl) s supply) id

/-- An object that has received its fields leads to what they lead to. -/
theorem successors_modifyObject {id : TypeId}
    (h : (s.modifyObject id (·.withFields supply.fields)).isQueryRoot id = true) :
    (s.modifyObject id (·.withFields supply.fields)).successors id =
      supply.table.values.map (·.target) := by
  rw [isQueryRoot, objectAt?_modifyObject, if_pos rfl] at h
  rw [successors, objectAt?_modifyObject, if_pos rfl]
  cases hobject : s.objectAt? id with
  | none => simp [hobject] at h
  | some o => rfl

/-- An object receives its fields after the types that they hold lists of were marked, and before
the entry points are. -/
theorem receive_eq (s : Schema) (supply : Supply) :
    s.receive supply = (s.entered supply).foldl markEntryPoint
      ((supply.held.foldl markList s).modifyObject supply.id (·.withFields supply.fields)) := by
  have hroot : ((supply.held.foldl markList s).modifyObject supply.id
      (·.withFields supply.fields)).isQueryRoot supply.id = s.isQueryRoot supply.id := by
    rw [isQueryRoot_eq_anyAt, isQueryRoot_eq_anyAt]
    refine anyAt_eq_of_map_types (.trans ?_ (map_types_foldl_markList
      blindToMarks_servesQueries.listItem blindToMarks_servesQueries.list s supply.held)) _
    exact map_types_modify _ _ fun t => by cases t <;> rfl
  unfold receive entered
  dsimp only
  rw [← hroot]
  split
  next hquery => rw [successors_modifyObject hquery]
  next => rfl

/-- Neither the fields of an object nor its mark as a list item have to do with the flag. -/
structure Flag.Apart (flag : Flag) : Prop where
  listItem : BlindToMark flag.view
  fields : ∀ (t : NamedType) (fields : List Field),
    flag.view (t.mapObject (·.withFields fields)) = flag.view t

/-- The flag of lists has to do with neither. -/
theorem Flag.apart_list : Flag.list.Apart where
  listItem t := by cases t <;> rfl
  fields t _ := by cases t <;> rfl

/-- The flag of entry points has to do with neither. -/
theorem Flag.apart_entryPoint : Flag.entryPoint.Apart where
  listItem t := by cases t <;> rfl
  fields t _ := by cases t <;> rfl

/-- Connecting an object raises such a flag when the types that its fields hold lists of are marked,
and when the entry points are. -/
theorem Flag.Apart.raises_connect (h : flag.Apart)
    (hheld : Raises flag ids s (supply.held.foldl markList s))
    (hentered : ∀ s', Raises flag ids' s' ((s.entered supply).foldl markEntryPoint s')) :
    Raises flag (ids ++ ids') s (s.connect supply) := by
  have hfields : ∀ s : Schema, Raises flag [] s
      (s.modifyObject supply.id (·.withFields supply.fields)) := fun s =>
    .of_map_types (s.map_types_modify supply.id fun t => h.fields t supply.fields)
  have hitems : ∀ s pending, Raises flag [] s (s.markPending pending) := fun s pending =>
    .of_map_types (map_types_markPending h.listItem s pending)
  rw [connect_eq, receive_eq]
  exact ((hheld.before (hfields _)).trans (hentered _)).before (hitems _ _)

/-- Marking a type that is held in lists raises the flag of lists there. -/
theorem raises_markList (s : Schema) (id : TypeId) : Raises .list [id] s (s.markList id) := by
  have hmodify : Raises .list [id] s (s.modify id NamedType.markList) := by
    refine Raises.modify (f := NamedType.markList) (fun t => ?_) (fun _ => rfl) s id
    cases t <;> exact (Bool.or_true _).symm
  exact hmodify.before (.of_map_types (map_types_markPending Flag.apart_list.listItem _ [id]))

/-- Marking an entry point raises the flag of entry points there. -/
theorem raises_markEntryPoint (s : Schema) (id : TypeId) :
    Raises .entryPoint [id] s (s.markEntryPoint id) := by
  refine .modify (fun t => ?_) (fun t => by cases t <;> rfl) s id
  cases t with
  | object o => exact (Bool.or_true _).symm
  | _ => rfl

/-- Connecting an object raises the flag of lists at the types that its fields hold lists of. -/
theorem raises_list_connect (s : Schema) (supply : Supply) :
    Raises .list supply.held s (s.connect supply) := by
  have hentered : ∀ s', Raises .list [] s' ((s.entered supply).foldl markEntryPoint s') :=
    fun s' => .of_map_types (map_types_foldl_markEntryPoint (fun t => by cases t <;> rfl) s' _)
  have h := Flag.apart_list.raises_connect
    (.foldl_singleton raises_markList s supply.held) hentered
  rwa [List.append_nil] at h

/-- Connecting an object raises the flag of entry points where its fields lead to, if it is the
query root. -/
theorem raises_entryPoint_connect (s : Schema) (supply : Supply) :
    Raises .entryPoint (s.entered supply) s (s.connect supply) := by
  have hheld : Raises .entryPoint [] s (supply.held.foldl markList s) :=
    .of_map_types (map_types_foldl_markList Flag.apart_entryPoint.listItem
      (fun t => by cases t <;> rfl) s supply.held)
  exact Flag.apart_entryPoint.raises_connect hheld fun s' =>
    .foldl_singleton raises_markEntryPoint s' _

/-- Connecting objects raises the flag of lists at all types that their fields hold lists of. -/
theorem raises_list_foldl_connect (s : Schema) (supplies : List Supply) :
    Raises .list (supplies.flatMap Supply.held) s (supplies.foldl connect s) :=
  .foldl (fun _ => True) (fun s supply _ => raises_list_connect s supply) (fun _ _ _ => trivial)
    trivial supplies

/-- Connecting objects raises the flag of entry points where the fields of the query root lead
to. -/
theorem raises_entryPoint_foldl_connect (s : Schema) (supplies : List Supply) :
    Raises .entryPoint (supplies.flatMap s.entered) s (supplies.foldl connect s) := by
  -- the query root stays where it is, so that each step raises what it would raise in the beginning
  refine .foldl (fun s' => ∀ id, s'.isQueryRoot id = s.isQueryRoot id) (fun s' supply hs' => ?_)
    (fun s' supply hs' id => (isQueryRoot_connect s' supply id).trans (hs' id)) (fun _ => rfl)
    supplies
  have hentered : s'.entered supply = s.entered supply := by rw [entered, hs', entered]
  exact hentered ▸ raises_entryPoint_connect s' supply

/-! ### Built schemas -/

/-- The flags of a schema are those that the fields of the document's objects raise. -/
structure Flagged (document : SchemaDocument) (schema : Schema) : Prop where
  /-- An object is an entry point if a field of the query root refers to it, behind any wrappers. -/
  entryPoint : ∀ o ∈ schema.objects, o.isEntryPoint = true ↔
    ∃ root fields, document.query = some root ∧ document.DeclaresObject root fields ∧
      ∃ f ∈ fields, f.type.name = o.name
  /-- A type is a list if a field of an object holds a list of it, at any depth. -/
  list : ∀ t ∈ schema.types, t.isList = true ↔
    ∃ name fields, document.DeclaresObject name fields ∧
      ∃ f ∈ fields, f.type.isList = true ∧ f.type.name = t.name

/-- The query root is the type that the document names as such. -/
theorem rootKind?_eq_query_iff {name : String} :
    rootKind? document name = some .query ↔ document.query = some name := by
  unfold rootKind?
  split
  next hquery => exact iff_of_true rfl hquery
  next hquery =>
    refine iff_of_false ?_ hquery
    split
    · simp
    · split <;> simp

/-- A registered object has the root operation that the document gives to its name. -/
theorem root_of_register {definition : TypeDef} {o : ObjectType}
    (h : register document directives definition = .ok (.object o)) :
    o.root = rootKind? document o.name := by
  unfold register at h
  split at h <;> first | (cases Except.ok.inj h; rfl) | cases h

/-- The object at a position is the query root if the document names it so. -/
theorem isQueryRoot_iff (hbase : registerAll document directives = .ok base) {id : TypeId}
    {name : String} (hobject : base.isObject id = true) (hname : base.nameAt? id = some name) :
    base.isQueryRoot id = true ↔ document.query = some name := by
  obtain ⟨t, ht, rfl⟩ := Option.map_eq_some_iff.1 hname
  obtain ⟨definition, -, hregister⟩ := exists_definition hbase ht
  rw [isObject, objectAt?, ht, Option.bind_some] at hobject
  rw [isQueryRoot, objectAt?, ht, Option.bind_some]
  cases t with
  | object o =>
    rw [NamedType.object?, Option.any_some, beq_iff_eq, root_of_register hregister,
      rootKind?_eq_query_iff, NamedType.name]
  | _ => cases hobject

/-- Before objects are connected, no type shows a flag. -/
theorem anyAt_shows_of_fillInputs (hbase : registerAll document directives = .ok base)
    (hfilled : fillInputs document directives base = .ok filled)
    (hshows : ∀ t : NamedType, flag.shows t.withoutMarks = false)
    (hfields : ∀ (i : InputType) (fields : List InputField),
      flag.shows (.input (i.withFields fields)) = flag.shows (.input i)) (id : TypeId) :
    filled.anyAt id flag.shows = false := by
  rw [anyAt_eq_of_map_types (map_types_fillInputs hfields hfilled), anyAt]
  cases ht : base.get? id with
  | none => rfl
  | some t =>
    obtain ⟨definition, -, hregister⟩ := exists_definition hbase ht
    rw [Option.any_some, ← withoutMarks_of_register hregister, hshows]

/-- The types of a connected schema are at the positions of their names, however the objects are
ordered. -/
theorem exists_position (hfilled : fillInputs document directives base = .ok filled)
    {order : List Supply} {t : NamedType} (ht : t ∈ (order.foldl connect filled).types) :
    ∃ id, (order.foldl connect filled).get? id = some t ∧ base.nameAt? id = some t.name := by
  have hblind : BlindToMarks NamedType.name := by
    constructor <;> intro t <;> cases t <;> rfl
  have hconnected : (order.foldl connect filled).types.map NamedType.name =
      filled.types.map NamedType.name :=
    map_types_foldl_connect hblind (fun t _ => by cases t <;> rfl) filled order
  have hnames : filled.types.map NamedType.name = base.types.map NamedType.name :=
    map_types_fillInputs (fun _ _ => rfl) hfilled
  obtain ⟨id, hid⟩ := List.mem_iff_getElem?.1 ht
  refine ⟨id, hid, ?_⟩
  rw [nameAt?, ← map_get?_eq_of_map_types (hconnected.trans hnames), get?, hid, Option.map_some]

namespace BuiltFrom

variable (h : BuiltFrom document directives base supplies schema) (hkeyed : document.KeyedByName)
  (hdistinct : document.DistinctFields)

include h hkeyed hdistinct

/-- The supplied fields of the query root lead to a type exactly when those of the document do. -/
theorem mem_entered_iff {id : TypeId} {name : String} (hname : base.nameAt? id = some name) :
    id ∈ supplies.flatMap base.entered ↔ ∃ root fields, document.query = some root ∧
      document.DeclaresObject root fields ∧ ∃ f ∈ fields, f.type.name = name := by
  have hentered : id ∈ supplies.flatMap base.entered ↔
      ∃ supply ∈ supplies, base.isQueryRoot supply.id = true ∧
        ∃ f ∈ supply.fields, True ∧ f.target = id := by
    rw [List.mem_flatMap]
    refine exists_congr fun supply => and_congr_right fun hsupply => ?_
    rw [entered, h.values_table hdistinct hsupply]
    split <;> simp [*]
  rw [hentered, h.exists_supply_target_iff hkeyed hname (fun _ => True)
    fun _ _ hobject => isQueryRoot_iff h.registered hobject]
  simp only [true_and, and_left_comm]

/-- However the objects are ordered when they are connected, the flags are those that the fields of
the document raise. -/
theorem flagged_foldl_connect (hfilled : fillInputs document directives base = .ok filled)
    {order : List Supply} (hperm : order.Perm supplies) :
    Flagged document (order.foldl connect filled) := by
  constructor
  · intro o ho
    obtain ⟨t, ht, hobject⟩ := List.mem_filterMap.1 ho
    obtain ⟨id, hid, hname⟩ := exists_position hfilled ht
    have hentered : filled.entered = base.entered := by
      funext supply
      rw [entered, isQueryRoot_eq_anyAt, anyAt_eq_of_map_types
        (map_types_fillInputs (fun _ _ => rfl) hfilled), ← isQueryRoot_eq_anyAt, entered]
    have hnone : filled.anyAt id Flag.entryPoint.shows = false :=
      anyAt_shows_of_fillInputs h.registered hfilled (fun t => by cases t <;> rfl)
        (fun _ _ => rfl) id
    have hadmits : Flag.entryPoint.admits t = true := by
      simp only [Flag.entryPoint, hobject, Option.isSome_some]
    have hshows : Flag.entryPoint.shows t = o.isEntryPoint := by
      simp only [Flag.entryPoint, NamedType.isEntryPoint, hobject, Option.any_some]
    rw [← hshows, (raises_entryPoint_foldl_connect filled order).shows_iff_mem hnone hid hadmits,
      (hperm.flatMap_right _).mem_iff, hentered,
      h.mem_entered_iff hkeyed hdistinct hname, NamedType.name_of_object? hobject]
  · intro t ht
    obtain ⟨id, hid, hname⟩ := exists_position hfilled ht
    have hnone : filled.anyAt id Flag.list.shows = false :=
      anyAt_shows_of_fillInputs h.registered hfilled (fun t => by cases t <;> rfl)
        (fun _ _ => rfl) id
    have hraised := (raises_list_foldl_connect filled order).shows_iff_mem hnone hid rfl
    rw [(hperm.flatMap_right _).mem_iff, h.mem_held_iff hkeyed hname] at hraised
    exact hraised

end BuiltFrom

/-- Where definitions stand under their own names and fields have distinct names, an object of a
built schema is an entry point exactly when a field of the query root refers to it, and a type of
any kind is a list exactly when a field of an object holds a list of it. The order in which the
objects are connected makes no difference to this. -/
theorem flagged_of_build (hkeyed : document.KeyedByName) (hdistinct : document.DistinctFields)
    (h : build document directives = .ok schema) :
    Flagged document schema ∧ ∀ base filled supplies (order : List Supply),
      registerAll document directives = .ok base →
      fillInputs document directives base = .ok filled →
      Schema.supplies document directives base = .ok supplies →
      order.Perm supplies → Flagged document (order.foldl connect filled) := by
  obtain ⟨base, supplies, hbuilt⟩ := exists_builtFrom h
  have hflagged : ∀ base' filled supplies' (order : List Supply),
      registerAll document directives = .ok base' →
      fillInputs document directives base' = .ok filled →
      Schema.supplies document directives base' = .ok supplies' →
      order.Perm supplies' → Flagged document (order.foldl connect filled) := by
    intro base' filled supplies' order hbase hfilled hsupplies hperm
    obtain rfl := Except.ok.inj (hbuilt.registered.symm.trans hbase)
    obtain rfl := Except.ok.inj (hbuilt.supplied.symm.trans hsupplies)
    exact hbuilt.flagged_foldl_connect hkeyed hdistinct hfilled hperm
  obtain ⟨base', filled, supplies', hbase, hfilled, hsupplies, rfl⟩ := exists_of_build h
  exact ⟨hflagged base' filled supplies' supplies' hbase hfilled hsupplies (.refl _), hflagged⟩

/-- A query root `Q` with fields of `A` and of lists of `S`, a mutation root `M` with a field of
`B`, an object `A` that leads to `B` and takes a list of `I`, and an input type `I` that holds lists
of `E`. -/
def rootsDocument : SchemaDocument where
  types := Table.ofList
    [("Q", ⟨"Q", none, [], .object [⟨"a", none, .nonNull (.named "A"), [], []⟩,
        ⟨"s", none, .nonNull (.list (.nonNull (.list (.named "S")))), [], []⟩]⟩),
      ("M", ⟨"M", none, [], .object [⟨"b", none, .named "B", [], []⟩]⟩),
      ("A", ⟨"A", none, [], .object
        [⟨"b", none, .named "B", [⟨"i", none, .list (.named "I"), []⟩], []⟩]⟩),
      ("B", ⟨"B", none, [], .object [⟨"e", none, .named "E", [], []⟩]⟩),
      ("I", ⟨"I", none, [], .input [⟨"e", none, .list (.named "E"), []⟩]⟩),
      ("E", ⟨"E", none, [], .enum ["X"]⟩),
      ("S", ⟨"S", none, [], .scalar⟩)]
  query := some "Q"
  mutation := some "M"
  subscription := none

/-- Only `A` is an entry point, and only `S` is a list. -/
theorem flagged_rootsDocument : rootsDocument.KeyedByName ∧ rootsDocument.DistinctFields ∧
    ∃ schema, build rootsDocument Table.empty = .ok schema ∧
      (schema.objects.map fun o => (o.name, o.isEntryPoint)) =
        [("A", true), ("B", false), ("M", false), ("Q", false)] ∧
      (schema.types.map fun t => (t.name, t.isList)) = [("A", false), ("B", false), ("E", false),
        ("I", false), ("M", false), ("Q", false), ("S", true)] ∧
      Flagged rootsDocument schema := by
  have hkeyed : rootsDocument.KeyedByName := by
    unfold SchemaDocument.KeyedByName
    decide
  have hdistinct : rootsDocument.DistinctFields := by
    unfold SchemaDocument.DistinctFields
    decide
  have hview : (build rootsDocument Table.empty).toOption.map (fun s =>
      (s.objects.map fun o => (o.name, o.isEntryPoint), s.types.map fun t => (t.name, t.isList))) =
        some ([("A", true), ("B", false), ("M", false), ("Q", false)],
          [("A", false), ("B", false), ("E", false), ("I", false), ("M", false), ("Q", false),
            ("S", true)]) := by cbv
  obtain ⟨schema, hbuild, hview⟩ := Option.map_eq_some_iff.1 hview
  obtain ⟨hentries, hlists⟩ := Prod.mk.inj hview
  have hbuild := Results.toOption_eq_some_iff.1 hbuild
  exact ⟨hkeyed, hdistinct, schema, hbuild, hentries, hlists,
    (flagged_of_build hkeyed hdistinct hbuild).1⟩

end Schema

end SignalSchema
