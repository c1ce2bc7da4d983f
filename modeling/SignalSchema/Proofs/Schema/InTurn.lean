import SignalSchema.Proofs.Schema.Built

/-!
# Resolving fields in turn

Building a schema resolves all fields by the registered types and connects the objects afterwards.
Nothing depends on this order: the fields of a type may as well be resolved when its turn comes, in
the schema as it is by then, where some types have their fields and marks already and others have
not. Resolving reads the positions of names and the permissions of types and nothing else
(`SameReferences`), and these are known once all types are registered. So both ways of building give
the same schema or the same fault (`buildInTurn_eq_build`).
-/

namespace SignalSchema

namespace Results

variable {ε σ α β : Type}

/-- Steps that compute something apart from the state, and then change the state by it, can be taken
in two passes: first everything is computed, and then the state is changed. -/
theorem foldlM_eq_map_foldl {f : σ → α → Except ε σ} {g : α → Except ε β} {act : σ → β → σ}
    {inv : σ → Prop} (hstep : ∀ s a, inv s → f s a = (g a).map (act s))
    (hact : ∀ s b, inv s → inv (act s b)) {s : σ} (hs : inv s) (as : List α) :
    as.foldlM f s = (as.mapM g).map fun bs => bs.foldl act s := by
  induction as generalizing s with
  | nil => rfl
  | cons a rest ih =>
    rw [List.foldlM_cons, List.mapM_cons, hstep s a hs]
    cases g a with
    | error e => rfl
    | ok b =>
      change rest.foldlM f (act s b) = _
      rw [ih (hact s b hs)]
      cases rest.mapM g <;> rfl

end Results

namespace Schema

open Deploy (DirectiveMap)

variable {document : SchemaDocument} {directives : DirectiveMap} {base filled schema other : Schema}
  {supply : Supply} {id : TypeId}

/-! ### What resolving depends on -/

/-- Two schemas in which references are resolved alike: names have the same positions, and the types
at the positions hand on the same permissions. -/
structure SameReferences (schema other : Schema) : Prop where
  lookup : ∀ name, other.lookup? name = schema.lookup? name
  permissions : other.types.map NamedType.permissions = schema.types.map NamedType.permissions

namespace SameReferences

/-- A schema resolves references as it does. -/
theorem refl (schema : Schema) : SameReferences schema schema :=
  ⟨fun _ => rfl, rfl⟩

/-- Schemas that resolve references as a third one resolve them alike. -/
theorem trans {third : Schema} (h : SameReferences schema other)
    (h' : SameReferences other third) : SameReferences schema third :=
  ⟨fun name => (h'.lookup name).trans (h.lookup name), h'.permissions.trans h.permissions⟩

variable (h : SameReferences schema other)

include h

/-- The same permissions are handed on. -/
theorem bind_permissions_eq (id : TypeId) :
    (other.get? id).bind NamedType.permissions = (schema.get? id).bind NamedType.permissions := by
  have hmap := map_get?_eq_of_map_types h.permissions id
  cases hother : other.get? id <;> cases hschema : schema.get? id <;> simp_all

/-- A field has the same permissions. -/
theorem fieldPermissions_eq (uses : List DirectiveUse) (type : TypeRef) :
    fieldPermissions other uses type = fieldPermissions schema uses type := by
  unfold fieldPermissions
  cases type with
  | named id =>
    dsimp only
    rw [h.bind_permissions_eq]
  | _ => rfl

/-- An input field, or an argument, is resolved in the same way. -/
theorem inputField_eq (above parent : String) (d : InputValueDef) :
    inputField other directives above parent d = inputField schema directives above parent d := by
  unfold inputField
  simp only [resolveType_congr h.lookup, h.fieldPermissions_eq]

/-- A field of an object is resolved in the same way. -/
theorem objectField_eq (parent : String) (d : FieldDef) :
    objectField other directives parent d = objectField schema directives parent d := by
  have harguments : inputField other directives parent parent =
      inputField schema directives parent parent := funext (h.inputField_eq parent parent)
  unfold objectField
  simp only [resolveType_congr h.lookup, h.fieldPermissions_eq, harguments]

/-- An input type is filled in the same way. -/
theorem fillInput_eq (i : InputType) :
    fillInput document directives other i = fillInput document directives schema i := by
  have hfields : inputField other directives (inputPrefix i.name) i.name =
      inputField schema directives (inputPrefix i.name) i.name :=
    funext (h.inputField_eq (inputPrefix i.name) i.name)
  unfold fillInput
  rw [hfields]

end SameReferences

/-- Filled input types leave references as they are. -/
theorem sameReferences_modify_input {i i' : InputType} (hi : schema.get? id = some (.input i))
    (hi' : fillInput document directives base i = .ok i') :
    SameReferences schema (schema.modify id fun _ => .input i') := by
  refine ⟨fun _ => rfl, List.ext_getElem? fun j => ?_⟩
  have hpermissions : i'.permissions = i.permissions := by
    rcases fillInput_eq_ok hi' with ⟨-, rfl⟩ | ⟨defs, fields, -, -, rfl⟩ <;> rfl
  rw [List.getElem?_map, List.getElem?_map]
  have hget := schema.get?_modify id j fun _ => .input i'
  rw [get?, get?] at hget
  rw [hget]
  split
  next hj =>
    subst hj
    rw [get?] at hi
    rw [hi, Option.map_some, Option.map_some, Option.map_some, NamedType.permissions,
      NamedType.permissions, hpermissions]
  next => rfl

/-- Connected objects leave references as they are. -/
theorem sameReferences_connect (schema : Schema) (supply : Supply) :
    SameReferences schema (schema.connect supply) := by
  have hids : (schema.connect supply).ids = schema.ids :=
    (Prod.mk.inj (index_connect schema supply)).1
  have hblind : BlindToMarks NamedType.permissions := by
    constructor <;> intro t <;> cases t <;> rfl
  exact ⟨fun name => by rw [lookup?, lookup?, hids],
    map_types_connect hblind (fun t _ => by cases t <;> rfl) schema supply⟩

/-! ### Building in turn -/

/-- Fills the type at a position if it is an input type, by the schema as it is. -/
def fillNext (document : SchemaDocument) (directives : DirectiveMap) (schema : Schema) :
    NamedType × TypeId → Except Fault Schema
  | (.input i, id) => (fillInput document directives schema i).map fun i' =>
    schema.modify id fun _ => .input i'
  | _ => .ok schema

/-- Resolves the fields of an object by the schema as it is, and connects the object. -/
def connectNext (directives : DirectiveMap) (schema : Schema) :
    TypeId × String × List FieldDef → Except Fault Schema
  | (id, name, defs) => (defs.mapM (objectField schema directives name)).map fun fields =>
    schema.connect ⟨id, fields⟩

/-- Builds the schema of a document type by type: the fields of each are resolved when its turn
comes, first those of the input types and then those of the objects. -/
def buildInTurn (document : SchemaDocument) (directives : DirectiveMap) : Except Fault Schema := do
  let registered ← registerAll document directives
  let filled ← registered.types.zipIdx.foldlM (fillNext document directives) registered
  (declaredObjects document filled).foldlM (connectNext directives) filled

/-- The type that a registered type becomes when it is filled. -/
def fillType (document : SchemaDocument) (directives : DirectiveMap) (base : Schema) :
    NamedType → Except Fault NamedType
  | .input i => (fillInput document directives base i).map .input
  | t => .ok t

/-- A change reaches the first type after the ones that are done. -/
theorem types_modify_length {done rest : List NamedType} {t : NamedType}
    (htypes : schema.types = done ++ t :: rest) (f : NamedType → NamedType) :
    (schema.modify done.length f).types = done ++ f t :: rest := by
  have hlength : done.length < (done ++ t :: rest).length := by simp
  rw [modify, htypes, List.modify_eq_take_cons_drop hlength]
  simp

/-- Filling the types at the end of a schema one after the other is filling them all by the
registered types. -/
theorem foldlM_fillNext (hrefs : SameReferences base schema) {done rest : List NamedType}
    (htypes : schema.types = done ++ rest) :
    (rest.zipIdx done.length).foldlM (fillNext document directives) schema =
      (rest.mapM (fillType document directives base)).map fun filled =>
        { schema with types := done ++ filled } := by
  induction rest generalizing done schema with
  | nil =>
    rw [List.append_nil] at htypes
    change Except.ok schema = Except.ok { schema with types := done ++ [] }
    rw [List.append_nil, ← htypes]
  | cons t rest ih =>
    -- what is filled is done, and the next position is that of the next type
    have hnext : ∀ (t' : NamedType) (s : Schema), SameReferences base s → s.ids = schema.ids →
        s.sections = schema.sections → s.types = done ++ t' :: rest →
        (rest.zipIdx (done.length + 1)).foldlM (fillNext document directives) s =
          (rest.mapM (fillType document directives base)).map fun filled =>
            { schema with types := done ++ t' :: filled } := by
      intro t' s hs hids hsections hst
      have hdone : s.types = (done ++ [t']) ++ rest := by rw [hst, List.append_assoc]; rfl
      have hfold := ih hs hdone
      rw [List.length_append, List.length_singleton] at hfold
      rw [hfold, hids, hsections]
      simp only [List.append_assoc, List.singleton_append]
    rw [List.zipIdx_cons, List.foldlM_cons, List.mapM_cons]
    cases t with
    | input i =>
      have hget : schema.get? done.length = some (.input i) := by
        rw [get?, htypes, List.getElem?_append_right le_rfl, Nat.sub_self]
        rfl
      rw [fillNext, hrefs.fillInput_eq, fillType]
      cases hfill : fillInput document directives base i with
      | error e => rfl
      | ok i' =>
        refine (hnext (.input i') _ (hrefs.trans (sameReferences_modify_input hget hfill)) rfl rfl
          (types_modify_length htypes _)).trans ?_
        cases hrest : rest.mapM (fillType document directives base) <;> rfl
    | _ =>
      refine (hnext _ schema hrefs rfl rfl htypes).trans ?_
      cases hrest : rest.mapM (fillType document directives base) <;> rfl

/-- Filling the input types in turn is filling them all at once. -/
theorem foldlM_fillNext_eq_fillInputs (base : Schema) :
    base.types.zipIdx.foldlM (fillNext document directives) base =
      fillInputs document directives base := by
  refine (foldlM_fillNext (.refl base) (List.nil_append base.types).symm).trans ?_
  have hmapM : (base.types.mapM (fillType document directives base)).map (fun filled =>
      { base with types := [] ++ filled }) =
      base.types.mapM (fillType document directives base) >>= fun types =>
        .ok { base with types := types } := by
    cases base.types.mapM (fillType document directives base) <;> rfl
  refine hmapM.trans (congrArg (· >>= _) (Results.mapM_congr_of_mem fun t _ => ?_))
  cases t <;> rfl

/-- Filling the input types leaves alone what is declared for the objects. -/
theorem declaredObjects_fillInputs (h : fillInputs document directives base = .ok filled) :
    declaredObjects document filled = declaredObjects document base := by
  have hobjects : filled.types.map NamedType.object? = base.types.map NamedType.object? :=
    map_types_fillInputs (fun _ _ => rfl) h
  have hdeclared : ∀ s : Schema, declaredObjects document s =
      (s.types.map NamedType.object?).zipIdx.filterMap fun (o?, id) =>
        o?.bind fun o => (objectFieldDefs? document o.name).map fun defs => (id, o.name, defs) := by
    intro s
    rw [declaredObjects, List.zipIdx_map, List.filterMap_map]
    rfl
  rw [hdeclared, hdeclared, hobjects]

/-- Filled input types leave references as they were registered. -/
theorem sameReferences_fillInputs (h : fillInputs document directives base = .ok filled) :
    SameReferences base filled := by
  have hids : filled.ids = base.ids := (Prod.mk.inj (index_fillInputs h)).1
  exact ⟨fun name => by rw [lookup?, lookup?, hids], map_types_fillInputs (fun _ _ => rfl) h⟩

/-- What the registered types supply for a declared object. -/
def supplyOf (directives : DirectiveMap) (base : Schema) :
    TypeId × String × List FieldDef → Except Fault Supply
  | (id, name, defs) => (defs.mapM (objectField base directives name)).map (Supply.mk id)

/-- Connecting the objects in turn is connecting them with what the registered types supply. -/
theorem foldlM_connectNext (h : fillInputs document directives base = .ok filled) :
    (declaredObjects document filled).foldlM (connectNext directives) filled =
      (supplies document directives base).map fun supplies => supplies.foldl connect filled := by
  have hstep : ∀ s declared, SameReferences base s → connectNext directives s declared =
      (supplyOf directives base declared).map s.connect := by
    rintro s ⟨id, name, defs⟩ hs
    have hfields : objectField s directives name = objectField base directives name :=
      funext (hs.objectField_eq name)
    rw [connectNext, supplyOf, hfields]
    cases defs.mapM (objectField base directives name) <;> rfl
  rw [declaredObjects_fillInputs h, Results.foldlM_eq_map_foldl hstep
    (fun s supply hs => hs.trans (sameReferences_connect s supply)) (sameReferences_fillInputs h)]
  refine congrArg (Except.map _) (Results.mapM_congr_of_mem ?_)
  rintro ⟨id, name, defs⟩ -
  dsimp only [supplyOf]
  cases defs.mapM (objectField base directives name) <;> rfl

/-- Resolving fields in turn builds the same schema, or fails with the same fault. -/
theorem buildInTurn_eq_build (document : SchemaDocument) (directives : DirectiveMap) :
    buildInTurn document directives = build document directives := by
  refine congrArg (registerAll document directives >>= ·) (funext fun registered => ?_)
  rw [foldlM_fillNext_eq_fillInputs]
  refine Results.bind_congr_of_ok fun filled hfilled => ?_
  rw [foldlM_connectNext hfilled]
  cases Schema.supplies document directives registered <;> rfl

end Schema

end SignalSchema
