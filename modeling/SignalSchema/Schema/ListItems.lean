import SignalSchema.Schema.Basic

/-!
# List items

Objects that may occur in a list are marked. What a marked object leads to through its fields
may occur in the list as well, so a mark is handed on to every object that can be reached. A
walk ends at an object that is marked already; therefore it also ends on graphs with cycles.
-/

namespace SignalSchema

/-- Whether a type is an object that is not marked as a list item. -/
def NamedType.isUnmarked (t : NamedType) : Bool :=
  t.object?.any fun o => !o.isListItem

namespace Schema

/-- Whether there is an object at a position that is not marked as a list item. -/
def isUnmarked (schema : Schema) (id : TypeId) : Bool :=
  (schema.get? id).any NamedType.isUnmarked

/-- The number of objects that are not marked as list items. -/
def unmarkedCount (schema : Schema) : Nat :=
  schema.types.countP NamedType.isUnmarked

/-- Marks the object at a position as a list item and leaves what it leads to as it is. -/
def setListItem (schema : Schema) (id : TypeId) : Schema :=
  schema.modifyObject id fun t => { t with isListItem := true }

/-- A type with the mark does not count among the unmarked objects. -/
theorem isUnmarked_mapObject (t : NamedType) :
    (t.mapObject fun o => { o with isListItem := true }).isUnmarked = false := by
  cases t <;> rfl

/-- Marking an unmarked object leaves fewer of them. -/
theorem unmarkedCount_setListItem_lt {schema : Schema} {id : TypeId}
    (h : schema.isUnmarked id = true) :
    (schema.setListItem id).unmarkedCount < schema.unmarkedCount := by
  obtain ⟨types, ids, sections⟩ := schema
  simp only [isUnmarked, get?, unmarkedCount, setListItem, modifyObject, modify] at h ⊢
  clear ids sections
  induction types generalizing id with
  | nil => simp at h
  | cons t rest ih =>
    cases id with
    | zero =>
      have ht : t.isUnmarked = true := by simpa using h
      simp [ht, isUnmarked_mapObject]
    | succ id =>
      have hrest := ih (by simpa using h)
      rw [List.modify_succ_cons, List.countP_cons, List.countP_cons]
      omega

/-- Marks the objects at the pending positions, and all that they lead to, as list items. -/
def markPending (schema : Schema) : List TypeId → Schema
  | [] => schema
  | id :: rest =>
    if _h : schema.isUnmarked id = true then
      markPending (schema.setListItem id) (schema.successors id ++ rest)
    else markPending schema rest
termination_by pending => (schema.unmarkedCount, pending.length)
decreasing_by
  · exact Prod.Lex.left _ _ (unmarkedCount_setListItem_lt _h)
  · exact Prod.Lex.right _ (by simp)

/-- Marks one object, and all that it leads to, as a list item. -/
def markListItem (schema : Schema) (id : TypeId) : Schema :=
  schema.markPending [id]

end Schema

end SignalSchema
