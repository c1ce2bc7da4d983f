import SignalSchema.Proofs.Deploy.Names
import SignalSchema.Proofs.Table

/-!
# The order of the names of a flat map

A flat map lists its names in the order in which they are first mentioned while it is made
(`keys_ofTree`). This is the order of the walk as long as the walk does not meet lists. But the keys
of a list item are all mentioned ahead of the item, so that they come before the constants of the
item and before what is below the first of them. The names are in the order of the walk exactly if
these keys are the first new names of the item anyway (`InOrder`, `eraseDups_mentions_eq_iff`).
-/

namespace SignalSchema.Deploy.FlatMap

/-! ### Mentions -/

/-- The name that a step mentions. -/
def Step.name : Step → String
  | reserve name => name
  | place name _ => name
  | append name _ => name
  | appendNew name _ => name

/-- The names of the children of constants. -/
def constantNames (path : String) (fields : List (String × Json)) : List String :=
  (constantKeys fields).map fun key => path ++ "_" ++ key

/-- The names of the keys of a list item that carry no directives. -/
def ownNames (path : String) : Json → List String
  | .object fields => (fields.filter fun e => !Key.isReserved e.1).map fun e => joinName path e.1
  | _ => []

mutual
/-- The names that are mentioned below a node, in order: a mapping with constants mentions its own
name again. -/
def mentions (path : String) : Json → List String
  | .object fields =>
    (if (Json.field? fields Key.constants).isSome then [path] else []) ++
      (constantNames path fields ++ fieldMentions path fields)
  | .array items => itemMentions path items
  | _ => []
/-- The names that are mentioned for the fields of a mapping: every field before what is below
it. -/
def fieldMentions (path : String) : List (String × Json) → List String
  | [] => []
  | (key, node) :: rest =>
    if Key.isReserved key then fieldMentions path rest
    else joinName path key :: (mentions (joinName path key) node ++ fieldMentions path rest)
/-- The names that are mentioned for the items of a list: every item after all of its own keys. -/
def itemMentions (path : String) : List Json → List String
  | [] => []
  | item :: rest => ownNames path item ++ (mentions path item ++ itemMentions path rest)
end

/-- The step that enters a node mentions its name. -/
theorem name_enter (inList : Bool) (name : String) (node : Json) :
    (Step.enter inList name node).name = name := by
  cases inList <;> rfl

/-- The steps for the constants of a mapping mention it and the children. -/
theorem map_name_constantSteps (path : String) (inList : Bool) (fields : List (String × Json)) :
    (constantSteps path inList fields).map Step.name =
      (if (Json.field? fields Key.constants).isSome then [path] else []) ++
        constantNames path fields := by
  rw [constantSteps, constantNames, constantKeys]
  cases Json.field? fields Key.constants with
  | none => rfl
  | some payload =>
    have hown : Step.name (if inList then Step.appendNew path (.object fields)
        else Step.place path (.object fields)) = path := by
      cases inList <;> rfl
    simp only [List.map_cons, hown, List.map_map, Option.isSome_some, if_true, List.singleton_append]
    congr 1
    exact List.map_congr_left fun e _ => name_enter inList _ _

mutual
/-- The steps below a node mention names in the order of `mentions`. -/
theorem map_name_steps (path : String) (inList : Bool) :
    (node : Json) → (steps path inList node).map Step.name = mentions path node
  | .object fields => by
    rw [steps, mentions, List.map_append, map_name_constantSteps, List.append_assoc,
      map_name_fieldSteps path inList fields]
  | .array items => by
    rw [steps, mentions]
    exact map_name_itemSteps path items
  | .null | .bool _ | .number _ | .string _ => rfl
/-- The steps for the fields of a mapping mention them, and what is below them. -/
theorem map_name_fieldSteps (path : String) (inList : Bool) :
    (fields : List (String × Json)) →
      (fieldSteps path inList fields).map Step.name = fieldMentions path fields
  | [] => rfl
  | (key, node) :: rest => by
    rw [fieldSteps, fieldMentions]
    split
    · exact map_name_fieldSteps path inList rest
    · rw [List.map_cons, name_enter, List.map_append, map_name_steps (joinName path key) inList node,
        map_name_fieldSteps path inList rest]
/-- The steps for the items of a list mention the keys of every item ahead of it. -/
theorem map_name_itemSteps (path : String) :
    (items : List Json) → (itemSteps path items).map Step.name = itemMentions path items
  | [] => rfl
  | item :: rest => by
    have hreserve : (reserveSteps path item).map Step.name = ownNames path item := by
      cases item with
      | object fields =>
        rw [reserveSteps, ownNames, List.map_map]
        rfl
      | _ => rfl
    rw [itemSteps, itemMentions, List.map_append, List.map_append, hreserve,
      map_name_steps path true item, map_name_itemSteps path rest, List.append_assoc]
end

/-- A step adds the name that it mentions at the end, unless the name is there. -/
theorem keys_apply (slots : Table Slot) (step : Step) :
    (step.apply slots).keys =
      if step.name ∈ slots.keys then slots.keys else slots.keys ++ [step.name] := by
  have hadd : ∀ entry : Entry, (Step.addEntry slots entry).keys =
      if entry.name ∈ slots.keys then slots.keys else slots.keys ++ [entry.name] := by
    intro entry
    rw [Step.addEntry]
    split <;> exact Table.keys_insert _ _ _
  have hcontains : slots.contains step.name = true ↔ step.name ∈ slots.keys := by
    rw [Table.contains_eq_isSome_get?, Table.isSome_get?_iff]
  cases step with
  | place name node => exact Table.keys_insert _ _ _
  | append name node => exact hadd _
  | reserve name =>
    rw [Step.apply, Step.name]
    rw [Step.name] at hcontains
    by_cases h : name ∈ slots.keys
    · rw [if_pos (hcontains.2 h), if_pos h]
    · rw [if_neg (mt hcontains.1 h), Table.keys_insert]
  | appendNew name node =>
    rw [Step.apply, Step.name]
    rw [Step.name] at hcontains
    by_cases h : name ∈ slots.keys
    · rw [if_pos (hcontains.2 h), if_pos h]
    · rw [if_neg (mt hcontains.1 h)]
      exact hadd _

/-- The names of a flat map are listed in the order in which they are first mentioned. -/
theorem keys_ofTree (tree : Json) : (ofTree tree).slots.keys = (mentions "" tree).eraseDups := by
  have hsteps : ∀ steps : List Step,
      (steps.foldl Step.apply Table.empty).keys = (steps.map Step.name).eraseDups := by
    intro steps
    -- from the end: the last step only adds its name behind the others
    induction steps using List.reverseRecOn with
    | nil => rfl
    | append_singleton steps step ih =>
      rw [List.foldl_append, List.foldl_cons, List.foldl_nil, keys_apply, ih, List.map_append,
        List.map_singleton, eraseDups_concat]
      simp only [List.mem_eraseDups]
  rw [ofTree, hsteps, map_name_steps]

/-! ### Mentions and visits -/

/-- The names that the walk visits below a node. -/
def visitedNames (path : String) (node : Json) : List String :=
  (visits path false node).map Visit.name

/-- The names that the walk visits for the fields of a mapping. -/
def fieldNames (path : String) (fields : List (String × Json)) : List String :=
  (fieldVisits path false fields).map Visit.name

/-- The names that the walk visits for the items of a list. -/
def itemNames (path : String) (items : List Json) : List String :=
  (itemVisits path items).map Visit.name

/-- The visits of the children of constants have their names. -/
theorem map_name_constantVisits (path : String) (inList : Bool) (fields : List (String × Json)) :
    (constantVisits path inList fields).map Visit.name = constantNames path fields := by
  rw [constantVisits, constantNames, constantKeys]
  cases Json.field? fields Key.constants with
  | none => rfl
  | some payload =>
    rw [List.map_map, List.map_map]
    rfl

mutual
/-- It makes no difference to the names whether the walk is inside of a list. -/
theorem map_name_visits (path : String) (inList : Bool) :
    (node : Json) → (visits path inList node).map Visit.name = visitedNames path node
  | .object fields => by
    rw [visitedNames, visits, visits, List.map_append, List.map_append, map_name_constantVisits,
      map_name_constantVisits, map_name_fieldVisits path inList fields, fieldNames]
  | .array _ => rfl
  | .null | .bool _ | .number _ | .string _ => rfl
/-- It makes no difference to the names of fields whether the walk is inside of a list. -/
theorem map_name_fieldVisits (path : String) (inList : Bool) :
    (fields : List (String × Json)) →
      (fieldVisits path inList fields).map Visit.name = fieldNames path fields
  | [] => rfl
  | (key, node) :: rest => by
    rw [fieldNames, fieldVisits, fieldVisits]
    split
    · exact map_name_fieldVisits path inList rest
    · rw [List.map_cons, List.map_cons, List.map_append, List.map_append,
        map_name_visits (joinName path key) inList node, map_name_fieldVisits path inList rest,
        visitedNames, fieldNames]
end

variable {path key name : String} {node item : Json} {fields : List (String × Json)}
  {items : List Json} {before : List String}

/-- Below a mapping the walk visits the children of the constants, and then the fields. -/
theorem visitedNames_object : visitedNames path (.object fields) =
    constantNames path fields ++ fieldNames path fields := by
  rw [visitedNames, visits, List.map_append, map_name_constantVisits, fieldNames]

/-- Below a list the walk visits the items. -/
theorem visitedNames_array : visitedNames path (.array items) = itemNames path items := by
  rw [visitedNames, visits, itemNames]

/-- A field that is no directive is visited before what is below it. -/
theorem fieldNames_cons (hplain : ¬ Key.isReserved key = true) :
    fieldNames path ((key, node) :: fields) =
      joinName path key :: (visitedNames (joinName path key) node ++ fieldNames path fields) := by
  rw [fieldNames, fieldVisits, if_neg hplain, List.map_cons, List.map_append, visitedNames,
    fieldNames]

/-- A field with a directive is not visited. -/
theorem fieldNames_cons_of_isReserved (hreserved : Key.isReserved key = true) :
    fieldNames path ((key, node) :: fields) = fieldNames path fields := by
  rw [fieldNames, fieldVisits, if_pos hreserved, fieldNames]

/-- The items of a list are visited one after the other. -/
theorem itemNames_cons :
    itemNames path (item :: items) = visitedNames path item ++ itemNames path items := by
  rw [itemNames, itemVisits, List.map_append, map_name_visits, itemNames]

/-- The names of an item's own keys are visited with the item. -/
theorem ownNames_subset (path : String) (item : Json) :
    ownNames path item ⊆ visitedNames path item := by
  cases item with
  | object fields =>
    intro name hname
    obtain ⟨e, he, rfl⟩ := List.mem_map.1 hname
    obtain ⟨hmem, hplain⟩ := List.mem_filter.1 he
    have hexists : ∃ visit ∈ fieldVisits path false fields, visit.name = joinName path e.1 :=
      exists_mem_fieldVisits hmem (by simpa using hplain)
    obtain ⟨visit, hvisit, hname⟩ := hexists
    rw [visitedNames_object]
    exact List.mem_append_right _ (List.mem_map.2 ⟨visit, hvisit, hname⟩)
  | _ => exact List.nil_subset _

mutual
/-- Below a node the same names are mentioned and visited, its own one apart. -/
theorem mem_mentions_iff (path name : String) : (node : Json) →
    (name ∈ path :: mentions path node ↔ name ∈ path :: visitedNames path node)
  | .object fields => by
    have hfields := mem_fieldMentions_iff path name fields
    have hagain : name ∈ (if (Json.field? fields Key.constants).isSome then [path] else []) →
        name = path := by
      split <;> simp
    rw [mentions, visitedNames_object]
    simp only [List.mem_cons, List.mem_append, hfields]
    constructor
    · rintro (h | h | h)
      · exact .inl h
      · exact .inl (hagain h)
      · exact .inr h
    · rintro (h | h)
      · exact .inl h
      · exact .inr (.inr h)
  | .array items => by
    rw [mentions, visitedNames_array]
    exact mem_itemMentions_iff path name items
  | .null | .bool _ | .number _ | .string _ => by
    simp [mentions, visitedNames, visits]
/-- For fields the same names are mentioned and visited. -/
theorem mem_fieldMentions_iff (path name : String) : (fields : List (String × Json)) →
    (name ∈ fieldMentions path fields ↔ name ∈ fieldNames path fields)
  | [] => by simp [fieldMentions, fieldNames, fieldVisits]
  | (key, node) :: rest => by
    have hrest := mem_fieldMentions_iff path name rest
    have hnode := mem_mentions_iff (joinName path key) name node
    rw [fieldMentions]
    split
    next hreserved => rw [fieldNames_cons_of_isReserved hreserved, hrest]
    next hplain =>
      rw [fieldNames_cons hplain, ← List.cons_append, ← List.cons_append, List.mem_append,
        List.mem_append, hnode, hrest]
/-- For items the same names are mentioned and visited, that of the list apart. -/
theorem mem_itemMentions_iff (path name : String) : (items : List Json) →
    (name ∈ path :: itemMentions path items ↔ name ∈ path :: itemNames path items)
  | [] => by simp [itemMentions, itemNames, itemVisits]
  | item :: rest => by
    have hrest := mem_itemMentions_iff path name rest
    have hitem := mem_mentions_iff path name item
    have hown : name ∈ ownNames path item → name ∈ visitedNames path item :=
      fun h => ownNames_subset path item h
    rw [itemMentions, itemNames_cons]
    simp only [List.mem_cons, List.mem_append] at hrest hitem ⊢
    tauto
end

/-! ### The order of the walk -/

mutual
/-- Below a node, after some names were met before, the keys of list items come in the order of the
walk: at every item, the walk meets the names of the item's own keys first, apart from those that
it met before. -/
def InOrder (before : List String) (path : String) : Json → Prop
  | .object fields => FieldsInOrder (before ++ constantNames path fields) path fields
  | .array items => ItemsInOrder before path items
  | _ => True
/-- The keys of list items below some fields come in the order of the walk. -/
def FieldsInOrder (before : List String) (path : String) : List (String × Json) → Prop
  | [] => True
  | (key, node) :: rest =>
    if Key.isReserved key then FieldsInOrder before path rest
    else
      InOrder (before ++ [joinName path key]) (joinName path key) node ∧
        FieldsInOrder (before ++ [joinName path key] ++ visitedNames (joinName path key) node)
          path rest
/-- The keys of the items, and of those below them, come in the order of the walk. -/
def ItemsInOrder (before : List String) (path : String) : List Json → Prop
  | [] => True
  | item :: rest =>
    ((before ++ ownNames path item).eraseDups <+: (before ++ visitedNames path item).eraseDups ∧
      InOrder (before ++ ownNames path item) path item) ∧
        ItemsInOrder (before ++ visitedNames path item) path rest
end

mutual
/-- Below a node whose name was met, names are first mentioned in the order of the walk exactly if
the keys of list items are in order. -/
theorem eraseDups_mentions_eq_iff (before : List String) (path : String) :
    (node : Json) → path ∈ before →
      ((before ++ mentions path node).eraseDups = (before ++ visitedNames path node).eraseDups ↔
        InOrder before path node)
  | .object fields, h => by
    have hagain : (if (Json.field? fields Key.constants).isSome then [path] else []) ⊆ before := by
      split <;> simp [h]
    rw [mentions, visitedNames_object, InOrder, eraseDups_append_of_subset hagain,
      ← List.append_assoc, ← List.append_assoc]
    exact eraseDups_fieldMentions_eq_iff _ path fields
  | .array items, h => by
    rw [mentions, visitedNames_array, InOrder]
    exact eraseDups_itemMentions_eq_iff before path items h
  | .null, _ | .bool _, _ | .number _, _ | .string _, _ => by
    simp [mentions, visitedNames, visits, InOrder]
/-- For fields, names are first mentioned in the order of the walk exactly if the keys of list items
are in order. -/
theorem eraseDups_fieldMentions_eq_iff (before : List String) (path : String) :
    (fields : List (String × Json)) →
      ((before ++ fieldMentions path fields).eraseDups =
          (before ++ fieldNames path fields).eraseDups ↔ FieldsInOrder before path fields)
  | [] => by simp [fieldMentions, fieldNames, fieldVisits, FieldsInOrder]
  | (key, node) :: rest => by
    rw [fieldMentions, FieldsInOrder]
    split
    next hreserved =>
      rw [fieldNames_cons_of_isReserved hreserved]
      exact eraseDups_fieldMentions_eq_iff before path rest
    next hplain =>
      have hmem : ∀ name, name ∈ before ++ [joinName path key] ++ mentions (joinName path key) node ↔
          name ∈ before ++ [joinName path key] ++ visitedNames (joinName path key) node := by
        intro name
        have hnode := mem_mentions_iff (joinName path key) name node
        simp only [List.mem_cons, List.mem_append, List.not_mem_nil, or_false] at hnode ⊢
        tauto
      rw [fieldNames_cons hplain, ← eraseDups_mentions_eq_iff _ _ node (by simp),
        ← eraseDups_fieldMentions_eq_iff _ path rest, ← eraseDups_append_eq_iff hmem]
      simp only [List.append_assoc, List.cons_append, List.nil_append]
/-- For items, names are first mentioned in the order of the walk exactly if their own keys, and
those of the list items below them, are in order. -/
theorem eraseDups_itemMentions_eq_iff (before : List String) (path : String) :
    (items : List Json) → path ∈ before →
      ((before ++ itemMentions path items).eraseDups =
          (before ++ itemNames path items).eraseDups ↔ ItemsInOrder before path items)
  | [], _ => by simp [itemMentions, itemNames, itemVisits, ItemsInOrder]
  | item :: rest, h => by
    have hmem : ∀ name, name ∈ before ++ ownNames path item ++ mentions path item ↔
        name ∈ before ++ visitedNames path item := by
      intro name
      have hown : name ∈ ownNames path item → name ∈ visitedNames path item :=
        fun hname => ownNames_subset path item hname
      have hitem := mem_mentions_iff path name item
      have hpath : name = path → name ∈ before := fun heq => heq ▸ h
      simp only [List.mem_cons, List.mem_append] at hitem ⊢
      tauto
    -- the own keys came ahead of the item, so the walk has to begin with the new ones of them
    rw [itemMentions, itemNames_cons, ItemsInOrder,
      ← eraseDups_mentions_eq_iff _ path item (List.mem_append_left _ h),
      ← eraseDups_append_append_eq_iff,
      ← eraseDups_itemMentions_eq_iff _ path rest (List.mem_append_left _ h),
      ← eraseDups_append_eq_iff hmem]
    simp only [List.append_assoc]
end

mutual
/-- Where no way leads to a list, nothing comes ahead. -/
theorem inOrder_of_forall_not_wayTo (before : List String) (path : String) :
    (node : Json) → (∀ way items, ¬ WayTo node way (.array items)) → InOrder before path node
  | .object fields, h => by
    rw [InOrder]
    exact fieldsInOrder_of_forall_not_wayTo _ path fields fun _ _ hmem hplain way items hway =>
      h _ items (.field hmem hplain hway)
  | .array items, h => absurd (.here _) (h [] items)
  | .null, _ | .bool _, _ | .number _, _ | .string _, _ => by
    simp [InOrder]
/-- Where no way leads from a field to a list, nothing comes ahead. -/
theorem fieldsInOrder_of_forall_not_wayTo (before : List String) (path : String) :
    (fields : List (String × Json)) →
      (∀ key child, (key, child) ∈ fields → Key.isReserved key = false →
        ∀ way items, ¬ WayTo child way (.array items)) → FieldsInOrder before path fields
  | [], _ => by simp [FieldsInOrder]
  | (key, node) :: rest, h => by
    have hrest := fun before => fieldsInOrder_of_forall_not_wayTo before path rest fun k child hmem =>
      h k child (List.mem_cons_of_mem _ hmem)
    rw [FieldsInOrder]
    split
    next => exact hrest _
    next hplain =>
      exact ⟨inOrder_of_forall_not_wayTo _ _ node
        (h key node List.mem_cons_self (Bool.not_eq_true _ ▸ hplain)), hrest _⟩
end

/-! ### Main result -/

/-- A flat map lists its names in the order in which they are first mentioned, with the keys of every
list item ahead of the item. Apart from the name of the whole layer, which is empty, this is the
order in which the walk first visits them exactly if the keys of list items are in order; in
particular if no way leads to a list. -/
theorem keys_ofTree_and_inOrder_iff (tree : Json) :
    (ofTree tree).slots.keys = (mentions "" tree).eraseDups ∧
      ((ofTree tree).slots.keys.filter (· ≠ "") =
          ((walk tree).map Visit.name).eraseDups.filter (· ≠ "") ↔ InOrder [""] "" tree) ∧
      ((∀ way items, ¬ WayTo tree way (.array items)) → InOrder [""] "" tree) := by
  have hkeys := keys_ofTree tree
  refine ⟨hkeys, ?_, inOrder_of_forall_not_wayTo _ _ tree⟩
  have hbehind : ∀ names : List String, ([""] ++ names).eraseDups =
      [""] ++ names.eraseDups.filter (· ≠ "") := by
    intro names
    have hroot : [""].eraseDups = [""] := rfl
    rw [eraseDups_append_eq, hroot]
    simp
  have horder := eraseDups_mentions_eq_iff [""] "" tree (List.mem_singleton.2 rfl)
  rw [hbehind, hbehind, List.append_cancel_left_eq, ← hkeys] at horder
  exact horder

/-- A list with one item, in which something is below the first of two keys. -/
def pairLayer : Json :=
  .object [("D", .array [.object [("a", .object [("x", .null)]), ("b", .null)]])]

/-- The second key of the item comes before what is below the first one. -/
theorem keys_ofTree_pairLayer : (ofTree pairLayer).slots.keys = ["D", "D_a", "D_b", "D_a_x"] ∧
    ((walk pairLayer).map Visit.name).eraseDups = ["D", "D_a", "D_a_x", "D_b"] ∧
    (ofTree pairLayer).slots.keys ≠ ((walk pairLayer).map Visit.name).eraseDups := by
  decide

end SignalSchema.Deploy.FlatMap
