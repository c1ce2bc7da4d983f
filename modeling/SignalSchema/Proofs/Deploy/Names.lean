import Mathlib.Tactic.SplitIfs
import SignalSchema.Proofs.Deploy.Walk

/-!
# Where the names of a flat map come from

A name of a flat map is made along a way through the layer, from keys of mappings that carry no
directives; the items of a list are passed under the name of the list. The children of constants
have one more key, which is not looked at: it may be that of a directive, and it stands behind an
underscore even where there is no name before it. `contains_ofTree_iff_wayTo` says that there are no
other names, and that all others but these children are joined from keys that carry no directives.
-/

namespace SignalSchema.Deploy

/-! ### Keys -/

mutual
/-- All keys of the mappings in a value, directives and what is inside of them included. -/
def keysIn : Json → List String
  | .object fields => keysInFields fields
  | .array items => keysInItems items
  | _ => []
/-- All keys of some fields and in their values. -/
def keysInFields : List (String × Json) → List String
  | [] => []
  | (key, node) :: rest => key :: (keysIn node ++ keysInFields rest)
/-- All keys in some items. -/
def keysInItems : List Json → List String
  | [] => []
  | item :: rest => keysIn item ++ keysInItems rest
end

/-- The name is joined from one or more keys of the layer, none of which carries a directive. -/
def JoinedFromKeys (tree : Json) (name : String) : Prop :=
  ∃ keys : List String, keys ≠ [] ∧ (∀ key ∈ keys, key ∈ keysIn tree ∧ Key.isReserved key = false) ∧
    name = "_".intercalate keys

variable {key : String} {node item : Json} {fields : List (String × Json)} {items : List Json}

/-- The key of a field, and the keys in its value, are keys of the mapping. -/
theorem keysIn_of_mem_fields (h : (key, node) ∈ fields) :
    key ∈ keysIn (.object fields) ∧ keysIn node ⊆ keysIn (.object fields) := by
  rw [keysIn]
  induction fields with
  | nil => cases h
  | cons first rest ih =>
    obtain ⟨k, v⟩ := first
    rw [keysInFields]
    rcases List.mem_cons.1 h with heq | h
    · obtain ⟨rfl, rfl⟩ := Prod.mk.inj heq
      exact ⟨List.mem_cons_self, fun _ hk => List.mem_cons_of_mem _ (List.mem_append_left _ hk)⟩
    · obtain ⟨hkey, hnode⟩ := ih h
      exact ⟨List.mem_cons_of_mem _ (List.mem_append_right _ hkey),
        fun _ hk => List.mem_cons_of_mem _ (List.mem_append_right _ (hnode hk))⟩

/-- The keys in an item are keys of the list. -/
theorem keysIn_of_mem_items (h : item ∈ items) : keysIn item ⊆ keysIn (.array items) := by
  rw [keysIn]
  induction items with
  | nil => cases h
  | cons first rest ih =>
    rw [keysInItems]
    rcases List.mem_cons.1 h with rfl | h
    · exact fun _ hk => List.mem_append_left _ hk
    · exact fun _ hk => List.mem_append_right _ (ih h hk)

namespace FlatMap

variable {name path : String} {inList : Bool} {way : List String}

/-! ### Ways -/

/-- The way leads from a node to one below it, or to the node itself: by the keys of mappings that
carry no directives, and through items of lists. -/
inductive WayTo : Json → List String → Json → Prop
  | here (node : Json) : WayTo node [] node
  | field {fields : List (String × Json)} {key : String} {child node : Json} {way : List String}
      (mem : (key, child) ∈ fields) (plain : Key.isReserved key = false)
      (below : WayTo child way node) : WayTo (.object fields) (key :: way) node
  | item {items : List Json} {child node : Json} {way : List String} (mem : child ∈ items)
      (below : WayTo child way node) : WayTo (.array items) way node

/-- The name that a way leads to from a path. -/
def nameBelow (path : String) (way : List String) : String :=
  way.foldl joinName path

/-- The keys that the constants of a mapping give to its children. -/
def constantKeys (fields : List (String × Json)) : List String :=
  match Json.field? fields Key.constants with
  | none => []
  | some payload => (constantBranch payload).map Prod.fst

/-- The name is that of a child of constants, at a mapping to which the way leads. -/
structure ConstantChild (node : Json) (path name : String) (way : List String) (key : String)
    (fields : List (String × Json)) : Prop where
  wayTo : WayTo node way (.object fields)
  mem : key ∈ constantKeys fields
  name_eq : name = nameBelow path way ++ "_" ++ key

/-- The keys on a way are keys of the layer and carry no directives. -/
theorem WayTo.keys {tree node : Json} (h : WayTo tree way node) :
    (∀ key ∈ way, key ∈ keysIn tree ∧ Key.isReserved key = false) ∧ keysIn node ⊆ keysIn tree := by
  induction h with
  | here node => exact ⟨by simp, List.Subset.refl _⟩
  | field mem plain _ ih =>
    obtain ⟨hkey, hchild⟩ := keysIn_of_mem_fields mem
    refine ⟨List.forall_mem_cons.2 ⟨⟨hkey, plain⟩, fun k hk => ?_⟩, List.Subset.trans ih.2 hchild⟩
    exact ⟨hchild (ih.1 k hk).1, (ih.1 k hk).2⟩
  | item mem _ ih =>
    have hchild := keysIn_of_mem_items mem
    exact ⟨fun k hk => ⟨hchild (ih.1 k hk).1, (ih.1 k hk).2⟩, List.Subset.trans ih.2 hchild⟩

/-- The keys of the branch that constants are taken from are keys of the constants. -/
theorem mem_keysIn_of_mem_constantBranch {payload : Json}
    (h : key ∈ (constantBranch payload).map Prod.fst) : key ∈ keysIn payload := by
  have hbranch : ∀ {branch : List (String × Json)}, key ∈ branch.map Prod.fst →
      key ∈ keysIn (.object branch) := by
    intro branch hkey
    obtain ⟨⟨k, v⟩, hmem, rfl⟩ := List.mem_map.1 hkey
    exact (keysIn_of_mem_fields hmem).1
  rw [constantBranch.eq_def] at h
  split at h
  next => exact (keysIn_of_mem_fields List.mem_cons_self).2 (hbranch h)
  next => exact keysIn_of_mem_items List.mem_cons_self (hbranch h)
  next => cases h

/-- The keys that constants give to children are keys of the layer. -/
theorem mem_keysIn_of_mem_constantKeys (h : key ∈ constantKeys fields) :
    key ∈ keysIn (.object fields) := by
  rw [constantKeys] at h
  split at h
  next => cases h
  next payload hpayload =>
    obtain ⟨before, after, hfields, -⟩ := List.lookup_eq_some_iff.1 hpayload
    have hmem : (Key.constants, payload) ∈ fields := by simp [hfields]
    exact (keysIn_of_mem_fields hmem).2 (mem_keysIn_of_mem_constantBranch h)

/-! ### Visits along ways -/

/-- The names that are visited below a node with a path: those that ways lead to, and those of the
children of constants. -/
def NamedBelow (path : String) (node : Json) (name : String) : Prop :=
  (∃ way child, way ≠ [] ∧ WayTo node way child ∧ name = nameBelow path way) ∨
    ∃ way key fields, ConstantChild node path name way key fields

/-- Below a mapping there are the children of its constants, its fields and what is below them. -/
theorem namedBelow_object_iff : NamedBelow path (.object fields) name ↔
    (∃ key ∈ constantKeys fields, name = path ++ "_" ++ key) ∨
      ∃ key child, (key, child) ∈ fields ∧ Key.isReserved key = false ∧
        (name = joinName path key ∨ NamedBelow (joinName path key) child name) := by
  constructor
  · rintro (⟨way, node, hne, hway, hname⟩ | ⟨way, key, branch, hway, hkey, hname⟩)
    · cases hway with
      | here => exact absurd rfl hne
      | @field _ key child _ rest hmem hplain hbelow =>
        refine .inr ⟨key, child, hmem, hplain, ?_⟩
        rcases rest with _ | ⟨k, rest⟩
        · exact .inl hname
        · exact .inr (.inl ⟨_, node, List.cons_ne_nil _ _, hbelow, hname⟩)
    · cases hway with
      | here => exact .inl ⟨key, hkey, hname⟩
      | field hmem hplain hbelow =>
        exact .inr ⟨_, _, hmem, hplain, .inr (.inr ⟨_, _, _, hbelow, hkey, hname⟩)⟩
  · rintro (⟨key, hkey, hname⟩ | ⟨key, child, hmem, hplain, rfl | hbelow | hbelow⟩)
    · exact .inr ⟨[], key, fields, .here _, hkey, hname⟩
    · exact .inl ⟨[key], child, List.cons_ne_nil _ _, .field hmem hplain (.here _), rfl⟩
    · obtain ⟨way, node, -, hway, hname⟩ := hbelow
      exact .inl ⟨key :: way, node, List.cons_ne_nil _ _, .field hmem hplain hway, hname⟩
    · obtain ⟨way, k, branch, hway, hkey, hname⟩ := hbelow
      exact .inr ⟨key :: way, k, branch, .field hmem hplain hway, hkey, hname⟩

/-- Below a list there is what is below its items. -/
theorem namedBelow_array_iff : NamedBelow path (.array items) name ↔
    ∃ item ∈ items, NamedBelow path item name := by
  constructor
  · rintro (⟨way, node, hne, hway, hname⟩ | ⟨way, key, branch, hway, hkey, hname⟩)
    · cases hway with
      | here => exact absurd rfl hne
      | item hmem hbelow => exact ⟨_, hmem, .inl ⟨way, node, hne, hbelow, hname⟩⟩
    · cases hway with
      | item hmem hbelow => exact ⟨_, hmem, .inr ⟨way, key, branch, hbelow, hkey, hname⟩⟩
  · rintro ⟨item, hmem, ⟨way, node, hne, hway, hname⟩ | ⟨way, key, branch, hway, hkey, hname⟩⟩
    · exact .inl ⟨way, node, hne, .item hmem hway, hname⟩
    · exact .inr ⟨way, key, branch, .item hmem hway, hkey, hname⟩

/-- Nothing is below a node that is neither a mapping nor a list. -/
theorem not_namedBelow (hobject : ∀ fields, node ≠ .object fields)
    (harray : ∀ items, node ≠ .array items) : ¬ NamedBelow path node name := by
  rintro (⟨way, child, hne, hway, -⟩ | ⟨way, key, branch, hway, -, -⟩)
  · cases hway with
    | here => exact hne rfl
    | field => exact hobject _ rfl
    | item => exact harray _ rfl
  · cases hway with
    | here => exact hobject _ rfl
    | field => exact hobject _ rfl
    | item => exact harray _ rfl

/-- The children of constants are visited under the names that their keys give. -/
theorem exists_mem_constantVisits_iff (path : String) (inList : Bool) (name : String)
    (fields : List (String × Json)) :
    (∃ visit ∈ constantVisits path inList fields, visit.name = name) ↔
      ∃ key ∈ constantKeys fields, name = path ++ "_" ++ key := by
  rw [constantVisits, constantKeys]
  cases Json.field? fields Key.constants with
  | none => simp
  | some payload =>
    simp only [List.mem_map]
    constructor
    · rintro ⟨visit, ⟨e, he, rfl⟩, rfl⟩
      exact ⟨e.1, ⟨e, he, rfl⟩, rfl⟩
    · rintro ⟨key, ⟨e, he, rfl⟩, rfl⟩
      exact ⟨_, ⟨e, he, rfl⟩, rfl⟩

mutual
/-- The walk visits the names below a node. -/
theorem exists_mem_visits_iff (path : String) (inList : Bool) (name : String) :
    (node : Json) →
      ((∃ visit ∈ visits path inList node, visit.name = name) ↔ NamedBelow path node name)
  | .object fields => by
    rw [visits, namedBelow_object_iff, ← exists_mem_constantVisits_iff path inList name fields,
      ← exists_mem_fieldVisits_iff path inList name fields]
    simp only [List.mem_append, or_and_right, exists_or]
  | .array items => by
    rw [visits, namedBelow_array_iff]
    exact exists_mem_itemVisits_iff path name items
  | .null | .bool _ | .number _ | .string _ =>
    iff_of_false (by simp [visits]) (not_namedBelow nofun nofun)
/-- The walk visits the fields that are no directives, and the names below them. -/
theorem exists_mem_fieldVisits_iff (path : String) (inList : Bool) (name : String) :
    (fields : List (String × Json)) →
      ((∃ visit ∈ fieldVisits path inList fields, visit.name = name) ↔
        ∃ key child, (key, child) ∈ fields ∧ Key.isReserved key = false ∧
          (name = joinName path key ∨ NamedBelow (joinName path key) child name))
  | [] => by simp [fieldVisits]
  | (key, node) :: rest => by
    have hrest := exists_mem_fieldVisits_iff path inList name rest
    have hnode := exists_mem_visits_iff (joinName path key) inList name node
    have hsplit : (∃ k child, (k, child) ∈ (key, node) :: rest ∧ Key.isReserved k = false ∧
        (name = joinName path k ∨ NamedBelow (joinName path k) child name)) ↔
        (Key.isReserved key = false ∧
          (name = joinName path key ∨ NamedBelow (joinName path key) node name)) ∨
        ∃ visit ∈ fieldVisits path inList rest, visit.name = name := by
      rw [hrest]
      constructor
      · rintro ⟨k, child, hmem, h⟩
        rcases List.mem_cons.1 hmem with heq | hmem
        · obtain ⟨rfl, rfl⟩ := Prod.mk.inj heq
          exact .inl h
        · exact .inr ⟨k, child, hmem, h⟩
      · rintro (h | ⟨k, child, hmem, h⟩)
        · exact ⟨key, node, List.mem_cons_self, h⟩
        · exact ⟨k, child, List.mem_cons_of_mem _ hmem, h⟩
    rw [fieldVisits, hsplit, ← hnode]
    split_ifs with hreserved
    · simp [hreserved]
    · simp only [hreserved, true_and, List.mem_cons, List.mem_append, or_and_right, exists_or,
        exists_eq_left, eq_comm (a := name), or_assoc]
/-- The walk visits the names below the items of a list. -/
theorem exists_mem_itemVisits_iff (path name : String) :
    (items : List Json) →
      ((∃ visit ∈ itemVisits path items, visit.name = name) ↔
        ∃ item ∈ items, NamedBelow path item name)
  | [] => by simp [itemVisits]
  | item :: rest => by
    have hrest := exists_mem_itemVisits_iff path name rest
    have hitem := exists_mem_visits_iff path true name item
    simp only [itemVisits, List.mem_cons, or_and_right, exists_or, exists_eq_left, ← hitem, ← hrest,
      List.mem_append]
end

/-! ### Names and keys -/

/-- Below a path with a name, a way adds its keys behind underscores. -/
theorem nameBelow_eq_intercalate (hpath : path ≠ "") (way : List String) :
    nameBelow path way = "_".intercalate (path :: way) := by
  induction way generalizing path with
  | nil => exact String.intercalate_singleton.symm
  | cons key rest ih =>
    have hjoin : joinName path key = path ++ "_" ++ key := if_neg hpath
    have hne : path ++ "_" ++ key ≠ "" := by simp [String.append_eq_empty_iff]
    rw [nameBelow, List.foldl_cons, hjoin, ← nameBelow, ih hne, String.intercalate_cons_append,
      String.intercalate_cons_cons]

/-- From the whole layer, which has no name, a way leads to a name that is joined from its keys,
less the empty ones at its beginning. -/
theorem nameBelow_eq_empty_or (way : List String) :
    nameBelow "" way = "" ∨
      ∃ keys, keys ≠ [] ∧ keys ⊆ way ∧ nameBelow "" way = "_".intercalate keys := by
  induction way with
  | nil => exact .inl rfl
  | cons key rest ih =>
    have hjoin : nameBelow "" (key :: rest) = nameBelow key rest := rfl
    rw [hjoin]
    by_cases hkey : key = ""
    · subst hkey
      refine ih.imp_right ?_
      rintro ⟨keys, hne, hsub, heq⟩
      exact ⟨keys, hne, fun k hk => List.mem_cons_of_mem _ (hsub hk), heq⟩
    · exact .inr ⟨key :: rest, List.cons_ne_nil _ _, List.Subset.refl _,
        nameBelow_eq_intercalate hkey rest⟩

variable {tree : Json}

/-- A name to which a way leads is joined from keys. -/
theorem WayTo.joinedFromKeys (h : WayTo tree way node) (hname : nameBelow "" way ≠ "") :
    JoinedFromKeys tree (nameBelow "" way) := by
  obtain hempty | ⟨keys, hne, hsub, heq⟩ := nameBelow_eq_empty_or way
  · exact absurd hempty hname
  · exact ⟨keys, hne, fun k hk => h.keys.1 k (hsub hk), heq⟩

/-- The name of a child of constants is joined from keys, if the child has a plain key and its
mapping a name. -/
theorem ConstantChild.joinedFromKeys (h : ConstantChild tree "" name way key fields)
    (hplain : Key.isReserved key = false) (hname : nameBelow "" way ≠ "") :
    JoinedFromKeys tree name := by
  obtain ⟨keys, hne, hkeys, heq⟩ := h.wayTo.joinedFromKeys hname
  have hkey : key ∈ keysIn tree := h.wayTo.keys.2 (mem_keysIn_of_mem_constantKeys h.mem)
  refine ⟨keys ++ [key], by simp, fun k hk => ?_, ?_⟩
  · rcases List.mem_append.1 hk with hk | hk
    · exact hkeys k hk
    · rw [List.mem_singleton.1 hk]
      exact ⟨hkey, hplain⟩
  · rw [String.intercalate_append_of_ne_nil hne (List.cons_ne_nil _ _),
      String.intercalate_singleton, ← heq, h.name_eq]

/-! ### Main result -/

/-- The names of a flat map are those to which ways lead and those of the children of constants. A
name is joined from keys that carry no directives, unless it is that of a child of constants whose
key carries a directive or whose mapping has no name. -/
theorem contains_ofTree_iff_wayTo (tree : Json) (hname : name ≠ "") :
    ((ofTree tree).contains name = true ↔
      (∃ way child, way ≠ [] ∧ WayTo tree way child ∧ name = nameBelow "" way) ∨
        ∃ way key fields, ConstantChild tree "" name way key fields) ∧
    ((ofTree tree).contains name = true → JoinedFromKeys tree name ∨
      ∃ way key fields, ConstantChild tree "" name way key fields ∧
        (Key.isReserved key = true ∨ nameBelow "" way = "")) := by
  have hnamed : (ofTree tree).contains name = true ↔ NamedBelow "" tree name :=
    (contains_ofTree_iff tree hname).trans (exists_mem_visits_iff "" false name tree)
  refine ⟨hnamed, fun hcontains => ?_⟩
  obtain ⟨way, child, -, hway, rfl⟩ | ⟨way, key, fields, hchild⟩ := hnamed.1 hcontains
  · exact .inl (hway.joinedFromKeys hname)
  · by_cases hplain : Key.isReserved key = false
    · by_cases hpath : nameBelow "" way = ""
      · exact .inr ⟨way, key, fields, hchild, .inr hpath⟩
      · exact .inl (hchild.joinedFromKeys hplain hpath)
    · exact .inr ⟨way, key, fields, hchild, .inl (Bool.not_eq_false _ ▸ hplain)⟩

/-- A layer in which the first branch of constants has the key of a directive. -/
def seatLayer : Json :=
  .object [("Seat", .object [("_constants",
    .object [("Row", .object [("_custom", .bool true)])])])]

/-- The child of the constants is named, and its name is accounted for. -/
theorem contains_seatLayer_custom : "Seat__custom" ≠ "" ∧
    (ofTree seatLayer).contains "Seat__custom" = true ∧
    ((∃ way child, way ≠ [] ∧ WayTo seatLayer way child ∧ "Seat__custom" = nameBelow "" way) ∨
      ∃ way key fields, ConstantChild seatLayer "" "Seat__custom" way key fields) ∧
    (JoinedFromKeys seatLayer "Seat__custom" ∨
      ∃ way key fields, ConstantChild seatLayer "" "Seat__custom" way key fields ∧
        (Key.isReserved key = true ∨ nameBelow "" way = "")) := by
  have hne : "Seat__custom" ≠ "" := by decide
  have hcontains : (ofTree seatLayer).contains "Seat__custom" = true := by decide
  obtain ⟨hiff, hjoined⟩ := contains_ofTree_iff_wayTo seatLayer hne
  exact ⟨hne, hcontains, hiff.1 hcontains, hjoined hcontains⟩

/-- The key of a directive becomes part of a name: there are no other keys to make it from. -/
theorem not_joinedFromKeys_seatLayer : (ofTree seatLayer).contains "Seat__custom" = true ∧
    "Seat__custom" ≠ "" ∧ ¬ JoinedFromKeys seatLayer "Seat__custom" := by
  refine ⟨by decide, by decide, ?_⟩
  rintro ⟨keys, hne, hkeys, hname⟩
  obtain hnil | ⟨init, last, rfl⟩ := List.eq_nil_or_concat keys
  · exact hne hnil
  -- the name ends in its last key, and no plain key ends like it
  obtain ⟨before, hbefore⟩ : ∃ before, "Seat__custom" = before ++ last := by
    rw [hname, List.concat_eq_append]
    by_cases hinit : init = []
    · exact ⟨"", by rw [hinit, List.nil_append, String.intercalate_singleton, String.empty_append]⟩
    · exact ⟨_, by rw [String.intercalate_append_of_ne_nil hinit (List.cons_ne_nil _ _),
        String.intercalate_singleton]⟩
  have hkeysIn : keysIn seatLayer = ["Seat", "_constants", "Row", "_custom"] := by decide
  obtain ⟨hmem, hplain⟩ := hkeys last (by simp)
  have hlast := congrArg (List.getLast? ∘ String.toList) hbefore
  rw [hkeysIn] at hmem
  simp only [List.mem_cons, List.not_mem_nil, or_false] at hmem
  rcases hmem with rfl | rfl | rfl | rfl
  · simp at hlast
  · exact absurd hplain (by decide)
  · simp at hlast
  · exact absurd hplain (by decide)

end FlatMap

end SignalSchema.Deploy
