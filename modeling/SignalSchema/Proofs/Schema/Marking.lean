import Mathlib.Logic.Relation
import SignalSchema.Schema.ListItems

/-!
# Marking list items

Marking walks over the graph of a schema: its objects, and for each of them the types that its
fields lead to. The walk is cut short at objects that are marked already, so what it achieves
depends on what was marked before. `Owes schema debt` says how far the marks are from being
closed: whatever a marked object leads to is marked, unless it is still in the debt. The walk
pays off the debt that it is given and makes no new one (`owes_markPending`); it marks what it
is sent to (`isListItem_markPending_of_mem`) and nothing that cannot be reached from there
(`isListItem_markPending_cases`); and it alters nothing but the marks (`map_types_markPending`).
-/

namespace SignalSchema

/-- The fields of an object, absent for what is no object. -/
def NamedType.fields? (t : NamedType) : Option (Table Field) :=
  t.object?.map (·.fields)

/-- Whether a type is an object that is marked as a list item. -/
def NamedType.isListItem (t : NamedType) : Bool :=
  t.object?.any (·.isListItem)

namespace Schema

variable {schema : Schema} {id a b : TypeId}

/-! ### The graph of a schema -/

/-- The fields of the object at a position. -/
def fieldsAt? (schema : Schema) (id : TypeId) : Option (Table Field) :=
  (schema.get? id).bind NamedType.fields?

/-- The graph of a schema: every object with the types that its fields lead to. -/
def graph (schema : Schema) (id : TypeId) : Option (List TypeId) :=
  (schema.fieldsAt? id).map fun fields => fields.values.map (·.target)

/-- A field of the object `a` leads to the object `b`. -/
def Leads (g : TypeId → Option (List TypeId)) (a b : TypeId) : Prop :=
  (∃ targets, g a = some targets ∧ b ∈ targets) ∧ (g b).isSome = true

/-- The object `b` can be reached from the object `a` in any number of steps. -/
abbrev Reaches (g : TypeId → Option (List TypeId)) : TypeId → TypeId → Prop :=
  Relation.ReflTransGen (Leads g)

/-- The objects are the places of the graph. -/
theorem isObject_eq_isSome_graph (schema : Schema) (id : TypeId) :
    schema.isObject id = (schema.graph id).isSome := by
  unfold isObject objectAt? graph fieldsAt? NamedType.fields?
  cases schema.get? id with
  | none => rfl
  | some t => cases t <;> rfl

/-- The successors of an object are read off the graph. -/
theorem successors_eq_getD_graph (schema : Schema) (id : TypeId) :
    schema.successors id = (schema.graph id).getD [] := by
  unfold successors objectAt? graph fieldsAt? NamedType.fields?
  cases schema.get? id with
  | none => rfl
  | some t => cases t <;> rfl

/-- The mark of a position is the mark of the type there. -/
theorem isListItem_eq_any (schema : Schema) (id : TypeId) :
    schema.isListItem id = (schema.get? id).any NamedType.isListItem := by
  unfold isListItem objectAt? NamedType.isListItem
  cases schema.get? id <;> rfl

/-- An object is either marked or not. -/
theorem isUnmarked_iff :
    schema.isUnmarked id = true ↔ schema.isObject id = true ∧ schema.isListItem id = false := by
  unfold isUnmarked isObject isListItem objectAt? NamedType.isUnmarked
  cases schema.get? id with
  | none => simp
  | some t => cases t <;> simp [NamedType.object?]

/-- A field leads from an object to an object. -/
theorem leads_iff :
    Leads schema.graph a b ↔ b ∈ schema.successors a ∧ schema.isObject b = true := by
  rw [Leads, successors_eq_getD_graph, isObject_eq_isSome_graph]
  cases schema.graph a <;> simp

/-- Two schemas that agree on a reading of types agree on it at every position. -/
theorem map_get?_eq_of_map_types {β : Type} {view : NamedType → β} {s s' : Schema}
    (h : s'.types.map view = s.types.map view) (id : TypeId) :
    (s'.get? id).map view = (s.get? id).map view := by
  unfold get?
  rw [← List.getElem?_map, ← List.getElem?_map, h]

/-- Two schemas with the same fields at every type have the same fields at every position. -/
theorem fieldsAt?_eq_of_map_types {s s' : Schema}
    (h : s'.types.map NamedType.fields? = s.types.map NamedType.fields?) :
    s'.fieldsAt? = s.fieldsAt? := by
  funext id
  have hid := map_get?_eq_of_map_types h id
  unfold fieldsAt?
  cases h' : s'.get? id <;> cases h0 : s.get? id <;> simp_all

/-- Two schemas with the same fields have the same graph. -/
theorem graph_eq_of_map_types {s s' : Schema}
    (h : s'.types.map NamedType.fields? = s.types.map NamedType.fields?) :
    s'.graph = s.graph := by
  funext id
  rw [graph, fieldsAt?_eq_of_map_types h, graph]

/-- Two schemas with the same marks at every type have the same marks at every position. -/
theorem isListItem_eq_of_map_types {s s' : Schema}
    (h : s'.types.map NamedType.isListItem = s.types.map NamedType.isListItem) :
    s'.isListItem = s.isListItem := by
  funext id
  have hid := map_get?_eq_of_map_types h id
  rw [isListItem_eq_any, isListItem_eq_any]
  cases h' : s'.get? id <;> cases h0 : s.get? id <;> simp_all

/-- How the types of a schema are found: by their names and by their kinds. -/
def index (schema : Schema) : Table TypeId × Sections :=
  (schema.ids, schema.sections)

/-! ### Marking one object -/

/-- A reading of types that does not see the mark. -/
def BlindToMark {β : Type} (view : NamedType → β) : Prop :=
  ∀ t, view (t.mapObject fun o => { o with isListItem := true }) = view t

/-- The fields of an object do not depend on its mark. -/
theorem blindToMark_fields? : BlindToMark NamedType.fields? := by
  intro t
  cases t <;> rfl

/-- Marking leaves the graph as it is. -/
theorem graph_setListItem (schema : Schema) (id : TypeId) :
    (schema.setListItem id).graph = schema.graph :=
  graph_eq_of_map_types (schema.map_types_modify id blindToMark_fields?)

/-- Marking an object marks it and no other. -/
theorem isListItem_setListItem (schema : Schema) (id j : TypeId) :
    (schema.setListItem id).isListItem j =
      (schema.isListItem j || (j == id && schema.isObject j)) := by
  unfold isListItem isObject setListItem
  rw [objectAt?_modifyObject]
  by_cases hj : id = j
  · subst hj
    cases schema.objectAt? id <;> simp
  · have hne : (j == id) = false := beq_false_of_ne (Ne.symm hj)
    simp [hj, hne]

/-! ### The walk -/

/-- The walk ends where nothing is pending. -/
@[simp] theorem markPending_nil (schema : Schema) : schema.markPending [] = schema := by
  rw [markPending]

/-- The walk alters nothing that does not see the mark. -/
theorem map_types_markPending {β : Type} {view : NamedType → β} (h : BlindToMark view)
    (schema : Schema) (pending : List TypeId) :
    (schema.markPending pending).types.map view = schema.types.map view := by
  fun_induction markPending schema pending with
  | case1 => rfl
  | case2 schema id rest _ ih => exact ih.trans (schema.map_types_modify id h)
  | case3 schema id rest _ ih => exact ih

/-- The walk leaves alone how types are found. -/
theorem index_markPending (schema : Schema) (pending : List TypeId) :
    (schema.markPending pending).index = schema.index := by
  fun_induction markPending schema pending with
  | case1 => rfl
  | case2 schema id rest _ ih => exact ih
  | case3 schema id rest _ ih => exact ih

/-- The walk leaves the graph as it is. -/
theorem graph_markPending (schema : Schema) (pending : List TypeId) :
    (schema.markPending pending).graph = schema.graph :=
  graph_eq_of_map_types (map_types_markPending blindToMark_fields? schema pending)

/-- The walk takes no mark away. -/
theorem isListItem_markPending_of_isListItem {pending : List TypeId}
    (h : schema.isListItem a = true) : (schema.markPending pending).isListItem a = true := by
  fun_induction markPending schema pending with
  | case1 => exact h
  | case2 schema id rest _ ih => exact ih (by rw [isListItem_setListItem, h, Bool.true_or])
  | case3 schema id rest _ ih => exact ih h

/-- The walk marks every object that is pending. -/
theorem isListItem_markPending_of_mem {pending : List TypeId} (ha : a ∈ pending)
    (ho : schema.isObject a = true) : (schema.markPending pending).isListItem a = true := by
  fun_induction markPending schema pending with
  | case1 => simp at ha
  | case2 schema id rest hid ih =>
    rcases List.mem_cons.1 ha with rfl | ha
    · apply isListItem_markPending_of_isListItem
      rw [isListItem_setListItem, ho]
      simp
    · refine ih (List.mem_append_right _ ha) ?_
      rwa [isObject_eq_isSome_graph, graph_setListItem, ← isObject_eq_isSome_graph]
  | case3 schema id rest hid ih =>
    rcases List.mem_cons.1 ha with rfl | ha
    · -- The object is not unmarked, hence it has its mark already.
      apply isListItem_markPending_of_isListItem
      simpa [isUnmarked_iff, ho] using hid
    · exact ih ha ho

/-- Marks that have not been handed on: what a marked object leads to is marked or owed. -/
def Owes (schema : Schema) (debt : List TypeId) : Prop :=
  ∀ a b, schema.isListItem a = true → Leads schema.graph a b →
    schema.isListItem b = true ∨ b ∈ debt

/-- A greater debt is owed as well. -/
theorem Owes.mono {debt debt' : List TypeId} (h : Owes schema debt) (hsub : debt ⊆ debt') :
    Owes schema debt' :=
  fun a b ha hab => (h a b ha hab).imp_right fun hb => hsub hb

/-- A position without an unmarked object is no debt. -/
theorem Owes.pass {debt : List TypeId} (h : Owes schema (id :: debt))
    (hid : ¬ schema.isUnmarked id = true) : Owes schema debt := by
  intro a b ha hab
  rcases h a b ha hab with hb | hb
  · exact Or.inl hb
  · rcases List.mem_cons.1 hb with rfl | hb
    · exact Or.inl (by simpa [isUnmarked_iff, (leads_iff.1 hab).2] using hid)
    · exact Or.inr hb

/-- An object that is marked now owes what it leads to. -/
theorem Owes.setListItem {debt : List TypeId} (h : Owes schema (id :: debt)) :
    Owes (schema.setListItem id) (schema.successors id ++ debt) := by
  intro a b ha hab
  rw [graph_setListItem] at hab
  rw [isListItem_setListItem] at ha ⊢
  by_cases haid : a = id
  · subst haid
    have hb : b ∈ schema.successors a := (leads_iff.1 hab).1
    exact Or.inr (List.mem_append_left _ hb)
  · have ha' : schema.isListItem a = true := by simpa [haid] using ha
    rcases h a b ha' hab with hb | hb
    · exact Or.inl (by rw [hb, Bool.true_or])
    · rcases List.mem_cons.1 hb with rfl | hb
      · exact Or.inl (by simp [(leads_iff.1 hab).2])
      · exact Or.inr (List.mem_append_right _ hb)

/-- The walk pays off what is pending and makes no new debt. -/
theorem owes_markPending {pending debt : List TypeId} (h : Owes schema (pending ++ debt)) :
    Owes (schema.markPending pending) debt := by
  fun_induction markPending schema pending with
  | case1 => exact h
  | case2 schema id rest hid ih =>
    apply ih
    rw [List.append_assoc]
    exact h.setListItem
  | case3 schema id rest hid ih => exact ih (h.pass hid)

/-- What the walk marks was marked before or can be reached from something pending. -/
theorem isListItem_markPending_cases {pending : List TypeId}
    (h : (schema.markPending pending).isListItem b = true) :
    schema.isListItem b = true ∨
      ∃ a ∈ pending, schema.isObject a = true ∧ Reaches schema.graph a b := by
  fun_induction markPending schema pending with
  | case1 => exact Or.inl h
  | case2 schema id rest hid ih =>
    have hobject := (isUnmarked_iff.1 hid).1
    rcases ih h with hb | ⟨a, ha, hao, hab⟩
    · rw [isListItem_setListItem] at hb
      by_cases hbid : b = id
      · exact Or.inr ⟨id, List.mem_cons_self, hobject, hbid ▸ Relation.ReflTransGen.refl⟩
      · exact Or.inl (by simpa [hbid] using hb)
    · rw [graph_setListItem] at hab
      rw [isObject_eq_isSome_graph, graph_setListItem, ← isObject_eq_isSome_graph] at hao
      rcases List.mem_append.1 ha with ha | ha
      · exact Or.inr ⟨id, List.mem_cons_self, hobject,
          Relation.ReflTransGen.head (leads_iff.2 ⟨ha, hao⟩) hab⟩
      · exact Or.inr ⟨a, List.mem_cons_of_mem _ ha, hao, hab⟩
  | case3 schema id rest hid ih =>
    rcases ih h with hb | ⟨a, ha, hao, hab⟩
    · exact Or.inl hb
    · exact Or.inr ⟨a, List.mem_cons_of_mem _ ha, hao, hab⟩

/-- The walk takes the pending positions one after the other. -/
theorem markPending_append (schema : Schema) (pending more : List TypeId) :
    schema.markPending (pending ++ more) = (schema.markPending pending).markPending more := by
  fun_induction markPending schema pending with
  | case1 => rfl
  | case2 schema id rest hid ih =>
    rw [List.cons_append, markPending, dif_pos hid, ← List.append_assoc, ih]
  | case3 schema id rest hid ih =>
    rw [List.cons_append, markPending, dif_neg hid, ih]

/-- Marking several objects in turn is one walk from all of them. -/
theorem foldl_markListItem (schema : Schema) (targets : List TypeId) :
    targets.foldl markListItem schema = schema.markPending targets := by
  induction targets generalizing schema with
  | nil => simp
  | cons id rest ih =>
    rw [List.foldl_cons, ih, markListItem, ← markPending_append, List.singleton_append]

/-- Where no mark is owed, every object that can be reached from a marked one is marked. -/
theorem isListItem_of_reaches (hclosed : Owes schema []) (ha : schema.isListItem a = true)
    (hab : Reaches schema.graph a b) : schema.isListItem b = true := by
  induction hab with
  | refl => exact ha
  | tail _ hbc ih => exact (hclosed _ _ ih hbc).resolve_right List.not_mem_nil

end Schema

end SignalSchema
