import SignalSchema.Deploy.FlatMap

/-!
# The walk of a layer

A layer is walked depth first, and every node that is met is a visit under its qualified name.
What a flat map has under a name is decided by the visits of that name alone, in their order: a
visit outside of lists replaces what came before, and one inside of a list is added to it
(`get?_ofTree`). The flat map does more than that while it is made, since it makes room for the
keys of list items and enters mappings with constants again; `applyAll_steps` says that none of
this is left at the end, for any name but the empty one, which also stands for the whole layer.
-/

namespace SignalSchema.Deploy

/-- A node that the walk of a layer meets, and whether it went through a list item to it. -/
structure Visit where
  name : String
  node : Json
  inList : Bool

namespace Visit

/-- The entry of the node that is visited. -/
def entry (visit : Visit) : Entry :=
  Entry.ofNode visit.name visit.node

/-- The slot of a name after it was visited. -/
def settle (slot : Option Slot) (visit : Visit) : Slot :=
  if visit.inList then
    match slot with
    | some (.many entries) => .many (entries ++ [visit.entry])
    | some (.single previous) => .many [previous, visit.entry]
    | none => .many [visit.entry]
  else .single visit.entry

/-- Outside of lists, a visit leaves nothing of what came before it. -/
theorem settle_of_not_inList {slot : Option Slot} {visit : Visit}
    (h : visit.inList = false) : visit.settle slot = .single visit.entry := by
  rw [settle.eq_def, h]
  rfl

/-- The slot of a name after some visits, of which those of other names do not count. -/
def settleAll (name : String) (slot : Option Slot) (visits : List Visit) : Option Slot :=
  visits.foldl (fun slot visit => if visit.name = name then some (visit.settle slot) else slot)
    slot

end Visit

namespace FlatMap

/-! ### Visits -/

/-- The visits for the constants of a mapping: one for every key of the first branch. -/
def constantVisits (path : String) (inList : Bool) (fields : List (String × Json)) :
    List Visit :=
  match Json.field? fields Key.constants with
  | none => []
  | some payload => (constantBranch payload).map fun (key, value) =>
      ⟨path ++ "_" ++ key, value, inList⟩

mutual
/-- The visits below a node. -/
def visits (path : String) (inList : Bool) : Json → List Visit
  | .object fields => constantVisits path inList fields ++ fieldVisits path inList fields
  | .array items => itemVisits path items
  | _ => []
/-- The visits for the fields of a mapping: every node, then what is below it. -/
def fieldVisits (path : String) (inList : Bool) : List (String × Json) → List Visit
  | [] => []
  | (key, node) :: rest =>
    if Key.isReserved key then fieldVisits path inList rest
    else
      ⟨joinName path key, node, inList⟩ ::
        (visits (joinName path key) inList node ++ fieldVisits path inList rest)
/-- The visits for the items of a list, which have the path of the list. -/
def itemVisits (path : String) : List Json → List Visit
  | [] => []
  | item :: rest => visits path true item ++ itemVisits path rest
end

/-- The visits of the walk of a layer, in order. -/
def walk (tree : Json) : List Visit :=
  visits "" false tree

/-- The visits of one name, in order. -/
def visitsOf (name : String) (tree : Json) : List Visit :=
  (walk tree).filter fun visit => visit.name = name

variable {name path : String} {inList : Bool} {slot : Option Slot} {node : Json}
  {fields : List (String × Json)}

/-! ### Steps seen from one name -/

/-- The slot of a name after a step. -/
def Step.applyAt (name : String) (slot : Option Slot) : Step → Option Slot
  | reserve other => if other = name then some (slot.getD (.many [])) else slot
  | place other node =>
    if other = name then some (Visit.settle slot ⟨other, node, false⟩) else slot
  | append other node =>
    if other = name then some (Visit.settle slot ⟨other, node, true⟩) else slot
  | appendNew other node =>
    if other = name then some (slot.getD (Visit.settle none ⟨other, node, true⟩)) else slot

/-- The slot of a name after some steps. -/
def applyAll (name : String) (slot : Option Slot) (steps : List Step) : Option Slot :=
  steps.foldl (Step.applyAt name) slot

/-- An entry is added to the slot of its name. -/
theorem get?_addEntry (slots : Table Slot) (other name : String) (node : Json) :
    (Step.addEntry slots (Entry.ofNode other node)).get? name =
      if other = name then some (Visit.settle (slots.get? other) ⟨other, node, true⟩)
      else slots.get? name := by
  have hname : (Entry.ofNode other node).name = other := rfl
  rw [Step.addEntry, hname]
  split
  all_goals
    rw [Table.get?_insert, ‹slots.get? other = _›]
    by_cases h : other = name
    · rw [if_pos h, if_pos h.symm]
      rfl
    · rw [if_neg h, if_neg (Ne.symm h)]

/-- A step changes the slots of all names independently. -/
theorem get?_apply (slots : Table Slot) (step : Step) (name : String) :
    (step.apply slots).get? name = step.applyAt name (slots.get? name) := by
  cases step with
  | place other node =>
    rw [Step.apply, Table.get?_insert, Step.applyAt]
    by_cases h : other = name
    · rw [if_pos h, if_pos h.symm, ← h]
      rfl
    · rw [if_neg h, if_neg (Ne.symm h)]
  | append other node =>
    rw [Step.apply, get?_addEntry, Step.applyAt]
    by_cases h : other = name
    · rw [if_pos h, if_pos h, h]
    · rw [if_neg h, if_neg h]
  | reserve other =>
    rw [Step.apply, Step.applyAt, Table.contains_eq_isSome_get?]
    by_cases h : other = name
    · subst h
      cases hget : slots.get? other with
      | none => simp [Table.get?_insert]
      | some slot => simp [hget]
    · rw [if_neg h]
      split
      · rfl
      · rw [Table.get?_insert, if_neg (Ne.symm h)]
  | appendNew other node =>
    rw [Step.apply, Step.applyAt, Table.contains_eq_isSome_get?]
    by_cases h : other = name
    · subst h
      cases hget : slots.get? other with
      | none => simp [get?_addEntry, hget]
      | some slot => simp [hget]
    · rw [if_neg h]
      split
      · rfl
      · rw [get?_addEntry, if_neg h]

/-- Steps change the slots of all names independently. -/
theorem get?_foldl_apply (slots : Table Slot) (steps : List Step) (name : String) :
    (steps.foldl Step.apply slots).get? name = applyAll name (slots.get? name) steps := by
  induction steps generalizing slots with
  | nil => rfl
  | cons step rest ih => rw [List.foldl_cons, ih, get?_apply, applyAll, applyAll, List.foldl_cons]

/-- Steps are applied one part after the other. -/
theorem applyAll_append (name : String) (slot : Option Slot) (first second : List Step) :
    applyAll name slot (first ++ second) = applyAll name (applyAll name slot first) second :=
  List.foldl_append

/-- Visits count one part after the other. -/
theorem settleAll_append (name : String) (slot : Option Slot) (first second : List Visit) :
    Visit.settleAll name slot (first ++ second) =
      Visit.settleAll name (Visit.settleAll name slot first) second :=
  List.foldl_append

/-- A slot that is there stays there. -/
theorem isSome_settleAll {vs : List Visit} (h : slot.isSome = true) :
    (Visit.settleAll name slot vs).isSome = true := by
  induction vs generalizing slot with
  | nil => exact h
  | cons visit rest ih =>
    rw [Visit.settleAll, List.foldl_cons]
    refine ih ?_
    split
    · rfl
    · exact h

/-- Entering a node is visiting it. -/
theorem applyAt_enter (name : String) (slot : Option Slot) (visit : Visit) :
    Step.applyAt name slot (Step.enter visit.inList visit.name visit.node) =
      Visit.settleAll name slot [visit] := by
  obtain ⟨other, node, inList⟩ := visit
  cases inList <;> rfl

/-- What is known when the walk goes below a node: the node has been entered under its path, and
outside of lists it is what the path stands for. -/
def Entered (name path : String) (inList : Bool) (node : Json) (slot : Option Slot) : Prop :=
  path = name → slot.isSome = true ∧
    (inList = false → slot = some (.single (Entry.ofNode name node)))

/-- A node that was just visited is entered. -/
theorem entered_settleAll (name path : String) (inList : Bool) (node : Json)
    (slot : Option Slot) :
    Entered name path inList node (Visit.settleAll name slot [⟨path, node, inList⟩]) := by
  rintro rfl
  rw [Visit.settleAll, List.foldl_cons, List.foldl_nil, if_pos rfl]
  refine ⟨rfl, ?_⟩
  rintro rfl
  rfl

/-- Constants make visits of their keys; entering their mapping again makes no difference. -/
theorem applyAll_constantSteps (h : Entered name path inList (.object fields) slot) :
    applyAll name slot (constantSteps path inList fields) =
      Visit.settleAll name slot (constantVisits path inList fields) := by
  rw [constantSteps, constantVisits]
  cases Json.field? fields Key.constants with
  | none => rfl
  | some payload =>
    have hown : Step.applyAt name slot (if inList then Step.appendNew path (.object fields)
        else Step.place path (.object fields)) = slot := by
      by_cases hpath : path = name
      · obtain ⟨hsome, hsingle⟩ := h hpath
        subst hpath
        cases inList with
        | true =>
          obtain ⟨s, rfl⟩ := Option.isSome_iff_exists.1 hsome
          simp [Step.applyAt]
        | false =>
          rw [hsingle rfl]
          simp [Step.applyAt, Visit.settle, Visit.entry]
      · cases inList <;> simp [Step.applyAt, hpath]
    dsimp only
    rw [applyAll, List.foldl_cons, hown, List.foldl_map, Visit.settleAll, List.foldl_map]
    congr 1
    funext slot e
    exact applyAt_enter name slot ⟨path ++ "_" ++ e.1, e.2, inList⟩

/-- Making room for names does nothing to the others, and nothing to a name that has a slot. -/
theorem applyAll_map_reserve (name : String) (slot : Option Slot) (names : List String) :
    applyAll name slot (names.map Step.reserve) =
      if name ∈ names then some (slot.getD (.many [])) else slot := by
  induction names generalizing slot with
  | nil => rfl
  | cons other rest ih =>
    rw [List.map_cons, applyAll, List.foldl_cons, ← applyAll, ih, Step.applyAt]
    by_cases hother : other = name
    · simp [hother]
    · simp [hother, Ne.symm hother]

/-- Every key of a mapping that is no directive is visited. -/
theorem exists_mem_fieldVisits {e : String × Json} (he : e ∈ fields)
    (hkey : Key.isReserved e.1 = false) :
    ∃ visit ∈ fieldVisits path inList fields, visit.name = joinName path e.1 := by
  induction fields with
  | nil => cases he
  | cons first rest ih =>
    obtain ⟨key, node⟩ := first
    rw [fieldVisits]
    rcases List.mem_cons.1 he with rfl | he
    · rw [if_neg (by simp [hkey])]
      exact ⟨_, List.mem_cons_self, rfl⟩
    · obtain ⟨visit, hvisit, hname⟩ := ih he
      split
      · exact ⟨visit, hvisit, hname⟩
      · exact ⟨visit, List.mem_cons_of_mem _ (List.mem_append_right _ hvisit), hname⟩

/-- Making room for the keys of a list item does nothing, or readies a name that the item then
visits. -/
theorem applyAll_reserveSteps (name path : String) (item : Json) (slot : Option Slot) :
    applyAll name slot (reserveSteps path item) = slot ∨
      slot = none ∧ applyAll name slot (reserveSteps path item) = some (.many []) ∧
        ∃ visit ∈ visits path true item, visit.name = name := by
  cases item with
  | object fields =>
    have hsteps : reserveSteps path (.object fields) =
        ((fields.filter fun e => !Key.isReserved e.1).map fun e => joinName path e.1).map
          Step.reserve := by
      rw [List.map_map]
      rfl
    rw [hsteps, applyAll_map_reserve]
    by_cases hmem : name ∈ (fields.filter fun e => !Key.isReserved e.1).map
        fun e => joinName path e.1
    · rw [if_pos hmem]
      cases slot with
      | some s => exact .inl rfl
      | none =>
        obtain ⟨e, he, hname⟩ := List.mem_map.1 hmem
        obtain ⟨he, hkey⟩ := List.mem_filter.1 he
        rw [Bool.not_eq_true'] at hkey
        obtain ⟨visit, hvisit, heq⟩ := exists_mem_fieldVisits he hkey
        refine .inr ⟨rfl, rfl, visit, ?_, heq.trans hname⟩
        rw [visits]
        exact List.mem_append_right _ hvisit
    · exact .inl (if_neg hmem)
  | _ => exact .inl rfl

/-- Room that was made for list items makes no difference once the name is visited. -/
theorem settleAll_many_nil {vs : List Visit} (h : ∃ visit ∈ vs, visit.name = name) :
    Visit.settleAll name (some (.many [])) vs = Visit.settleAll name none vs := by
  induction vs with
  | nil => simp at h
  | cons visit rest ih =>
    rw [Visit.settleAll, Visit.settleAll, List.foldl_cons, List.foldl_cons]
    by_cases hname : visit.name = name
    · -- the first visit of the name puts the same slot in both places
      rw [if_pos hname, if_pos hname]
      rfl
    · rw [if_neg hname, if_neg hname]
      obtain ⟨other, hother, heq⟩ := h
      rcases List.mem_cons.1 hother with rfl | hother
      · exact absurd heq hname
      · exact ih ⟨other, hother, heq⟩

/-! ### Steps and visits -/

mutual
/-- The steps below an entered node do to a name what the visits below it do. -/
theorem applyAll_steps (name path : String) (inList : Bool) (slot : Option Slot) :
    (node : Json) → Entered name path inList node slot →
      applyAll name slot (steps path inList node) =
        Visit.settleAll name slot (visits path inList node)
  | .object fields, h => by
    rw [steps, visits, applyAll_append, settleAll_append, applyAll_constantSteps h]
    exact applyAll_fieldSteps name path inList _ fields
  | .array items, h => by
    rw [steps, visits]
    exact applyAll_itemSteps name path slot items fun hpath => (h hpath).1
  | .null, _ | .bool _, _ | .number _, _ | .string _, _ => rfl
/-- The steps for the fields of a mapping do to a name what their visits do. -/
theorem applyAll_fieldSteps (name path : String) (inList : Bool) (slot : Option Slot) :
    (fields : List (String × Json)) →
      applyAll name slot (fieldSteps path inList fields) =
        Visit.settleAll name slot (fieldVisits path inList fields)
  | [] => rfl
  | (key, node) :: rest => by
    rw [fieldSteps, fieldVisits]
    split
    · exact applyAll_fieldSteps name path inList slot rest
    · have henter := applyAt_enter name slot ⟨joinName path key, node, inList⟩
      have hentered := entered_settleAll name (joinName path key) inList node slot
      rw [applyAll, List.foldl_cons, henter, ← applyAll, applyAll_append,
        applyAll_steps name _ inList _ node hentered, applyAll_fieldSteps name path inList _ rest,
        ← settleAll_append, ← settleAll_append]
      rfl
/-- The steps for the items of a list do to a name what their visits do. -/
theorem applyAll_itemSteps (name path : String) (slot : Option Slot) :
    (items : List Json) → (path = name → slot.isSome = true) →
      applyAll name slot (itemSteps path items) =
        Visit.settleAll name slot (itemVisits path items)
  | [], _ => rfl
  | item :: rest, h => by
    have hitem : applyAll name slot (reserveSteps path item ++ steps path true item) =
        Visit.settleAll name slot (visits path true item) := by
      rw [applyAll_append]
      obtain hsame | ⟨rfl, hroom, hvisit⟩ := applyAll_reserveSteps name path item slot
      · rw [hsame]
        exact applyAll_steps name path true slot item fun hpath => ⟨h hpath, nofun⟩
      · rw [hroom, applyAll_steps name path true _ item fun _ => ⟨rfl, nofun⟩]
        exact settleAll_many_nil hvisit
    rw [itemSteps, itemVisits, applyAll_append, hitem, settleAll_append]
    exact applyAll_itemSteps name path _ rest fun hpath => isSome_settleAll (h hpath)
end

/-- A flat map has under a name what the visits of the walk make of it. -/
theorem get?_ofTree_eq_settleAll (tree : Json) (hname : name ≠ "") :
    (ofTree tree).get? name = Visit.settleAll name none (walk tree) := by
  rw [get?, ofTree, get?_foldl_apply]
  exact applyAll_steps name "" false none tree fun h => absurd h.symm hname

/-! ### The slot of a name -/

/-- Only the visits of a name count for its slot. -/
theorem settleAll_eq_foldl_filter (name : String) (slot : Option Slot) (vs : List Visit) :
    Visit.settleAll name slot vs =
      (vs.filter fun visit => visit.name = name).foldl
        (fun slot visit => some (visit.settle slot)) slot := by
  rw [List.foldl_filter, Visit.settleAll]
  simp only [decide_eq_true_eq]

/-- Visits in lists are added to the entries that there are. -/
theorem foldl_settle_many {vs : List Visit} (h : ∀ visit ∈ vs, visit.inList = true)
    (entries : List Entry) :
    vs.foldl (fun slot visit => some (visit.settle slot)) (some (.many entries)) =
      some (.many (entries ++ vs.map Visit.entry)) := by
  induction vs generalizing entries with
  | nil => simp
  | cons visit rest ih =>
    obtain ⟨hvisit, hrest⟩ := List.forall_mem_cons.1 h
    rw [List.foldl_cons, Visit.settle, if_pos hvisit, ih hrest, List.map_cons, List.append_assoc]
    rfl

/-- The first visit in a list makes one of several entries of a single one. -/
theorem foldl_settle_single {vs : List Visit} (h : ∀ visit ∈ vs, visit.inList = true)
    (entry : Entry) :
    vs.foldl (fun slot visit => some (visit.settle slot)) (some (.single entry)) =
      some (if vs.isEmpty then .single entry else .many (entry :: vs.map Visit.entry)) := by
  cases vs with
  | nil => rfl
  | cons visit rest =>
    obtain ⟨hvisit, hrest⟩ := List.forall_mem_cons.1 h
    rw [List.foldl_cons, Visit.settle, if_pos hvisit]
    exact foldl_settle_many hrest [entry, visit.entry]

/-- The entries of visits of one name have this name. -/
theorem map_entry_of_forall_name {vs : List Visit} (h : ∀ visit ∈ vs, visit.name = name) :
    vs.map Visit.entry = vs.map fun visit => Entry.ofNode name visit.node := by
  refine List.map_congr_left fun visit hvisit => ?_
  rw [Visit.entry, h visit hvisit]

/-- The visits of a name have it. -/
theorem name_of_mem_visitsOf (name : String) (tree : Json) :
    ∀ visit ∈ visitsOf name tree, visit.name = name :=
  fun _ h => of_decide_eq_true (List.mem_filter.1 h).2

/-- A flat map has under a name what the visits of the name leave there, one after the other. -/
theorem get?_ofTree_eq_foldl (tree : Json) (hname : name ≠ "") :
    (ofTree tree).get? name = (visitsOf name tree).foldl
      (fun slot visit => some (visit.settle slot)) none := by
  rw [get?_ofTree_eq_settleAll tree hname, settleAll_eq_foldl_filter, visitsOf]

/-- There is something under a name exactly when it is visited. -/
theorem contains_ofTree_iff (tree : Json) (hname : name ≠ "") :
    (ofTree tree).contains name = true ↔ ∃ visit ∈ walk tree, visit.name = name := by
  have hcontains : (ofTree tree).contains name = ((ofTree tree).get? name).isSome :=
    Table.contains_eq_isSome_get? _ _
  have hvisits : (∃ visit ∈ walk tree, visit.name = name) ↔ visitsOf name tree ≠ [] := by
    rw [visitsOf, Ne, List.filter_eq_nil_iff]
    simp
  rw [hcontains, get?_ofTree_eq_foldl tree hname, hvisits]
  rcases List.eq_nil_or_concat (visitsOf name tree) with hnil | ⟨before, last, hlast⟩
  · simp [hnil]
  · simp [hlast]

/-- Visits that are all in lists leave their entries. -/
theorem get?_ofTree_of_inList {tree : Json} (hname : name ≠ "") (hne : visitsOf name tree ≠ [])
    (h : ∀ visit ∈ visitsOf name tree, visit.inList = true) :
    (ofTree tree).get? name =
      some (.many ((visitsOf name tree).map fun visit => Entry.ofNode name visit.node)) := by
  rw [get?_ofTree_eq_foldl tree hname,
    ← map_entry_of_forall_name (name_of_mem_visitsOf name tree)]
  cases hvs : visitsOf name tree with
  | nil => exact absurd hvs hne
  | cons first rest =>
    rw [hvs] at h
    obtain ⟨hfirst, hrest⟩ := List.forall_mem_cons.1 h
    rw [List.foldl_cons, Visit.settle, if_pos hfirst]
    exact foldl_settle_many hrest [first.entry]

/-- The last visit outside of lists leaves its entry, and later visits theirs. -/
theorem get?_ofTree_of_last {tree : Json} (hname : name ≠ "") {before after : List Visit}
    {last : Visit} (hsplit : visitsOf name tree = before ++ last :: after)
    (hlast : last.inList = false) (hafter : ∀ visit ∈ after, visit.inList = true) :
    (ofTree tree).get? name =
      some (if after.isEmpty then .single (Entry.ofNode name last.node)
        else .many (Entry.ofNode name last.node ::
          after.map fun visit => Entry.ofNode name visit.node)) := by
  have hmem : ∀ visit ∈ last :: after, visit.name = name := by
    intro visit hvisit
    refine name_of_mem_visitsOf name tree visit ?_
    rw [hsplit]
    exact List.mem_append_right _ hvisit
  obtain ⟨hlastname, haftername⟩ := List.forall_mem_cons.1 hmem
  rw [get?_ofTree_eq_foldl tree hname, hsplit, List.foldl_append, List.foldl_cons,
    Visit.settle_of_not_inList hlast, foldl_settle_single hafter,
    map_entry_of_forall_name haftername, Visit.entry, hlastname]

/-- What is under a name that is not empty, read off the walk of the layer. There is something
when the name is visited. If all its visits are in lists, it is their entries. Otherwise, it is
what the last visit outside of lists put there, and the entries of the visits after it. -/
theorem get?_ofTree (tree : Json) (hname : name ≠ "") :
    ((ofTree tree).contains name = true ↔ ∃ visit ∈ walk tree, visit.name = name) ∧
    (visitsOf name tree ≠ [] → (∀ visit ∈ visitsOf name tree, visit.inList = true) →
      (ofTree tree).get? name =
        some (.many ((visitsOf name tree).map fun visit => Entry.ofNode name visit.node))) ∧
    ∀ before last after, visitsOf name tree = before ++ last :: after → last.inList = false →
      (∀ visit ∈ after, visit.inList = true) →
        (ofTree tree).get? name =
          some (if after.isEmpty then .single (Entry.ofNode name last.node)
            else .many (Entry.ofNode name last.node ::
              after.map fun visit => Entry.ofNode name visit.node)) :=
  ⟨contains_ofTree_iff tree hname, get?_ofTree_of_inList hname,
    fun _ _ _ => get?_ofTree_of_last hname⟩

/-- A layer with a node `D_R`, and with the same name in both items of the list `D`. -/
def doorLayer : Json :=
  .object [("D_R", .null),
    ("D", .array [.object [("R", .bool true)], .object [("R", .bool false)]])]

/-- The node outside of the list is kept, and those of the list are added to it. -/
theorem get?_ofTree_doorLayer : "D_R" ≠ "" ∧
    visitsOf "D_R" doorLayer =
      [⟨"D_R", .null, false⟩, ⟨"D_R", .bool true, true⟩, ⟨"D_R", .bool false, true⟩] ∧
    (ofTree doorLayer).get? "D_R" = some (.many [Entry.ofNode "D_R" .null,
      Entry.ofNode "D_R" (.bool true), Entry.ofNode "D_R" (.bool false)]) := by
  have hne : "D_R" ≠ "" := by decide
  have hvisits : visitsOf "D_R" doorLayer =
      [⟨"D_R", .null, false⟩, ⟨"D_R", .bool true, true⟩, ⟨"D_R", .bool false, true⟩] := by
    rfl
  exact ⟨hne, hvisits, (get?_ofTree doorLayer hne).2.2 [] _ [_, _] hvisits rfl (by simp)⟩

end FlatMap

end SignalSchema.Deploy
