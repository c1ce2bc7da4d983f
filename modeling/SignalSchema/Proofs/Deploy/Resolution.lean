import Mathlib
import SignalSchema.Deploy.DirectiveMap
import SignalSchema.Proofs.Deploy.Nesting

/-!
# Resolved layers

The directives of a layer are those that the entries of its flat map resolve to. All entries of a
slot have its name (`namedBySlot_ofTree`), and the factory builds everything under the name of an
entry; so a directive and all that it is made of have the name under which it is found. Lists are
made of the slots with several entries, and nowhere else (`ofFlatMap_ofTree`).
-/

namespace SignalSchema.Deploy

variable {entry : Entry} {entries : List Entry} {slot : Slot} {d? : Option Directive}
  {ds : List Directive} {name : String}

/-! ### Names of entries -/

/-- Every entry has the name of its slot. -/
def NamedBySlot (slots : Table Slot) : Prop :=
  ∀ e ∈ slots.entries, ∀ entry ∈ e.2.entries, entry.name = e.1

/-- Entering a slot of entries with its name keeps all entries named by their slots. -/
theorem NamedBySlot.insert {slots : Table Slot} (h : NamedBySlot slots)
    (hslot : ∀ entry ∈ slot.entries, entry.name = name) :
    NamedBySlot (slots.insert name slot) := by
  intro e he
  rcases Table.mem_entries_insert he with rfl | he
  · exact hslot
  · exact h e he

/-- Adding an entry keeps all entries named by their slots. -/
theorem NamedBySlot.addEntry {slots : Table Slot} (h : NamedBySlot slots) (entry : Entry) :
    NamedBySlot (FlatMap.Step.addEntry slots entry) := by
  have hprevious : ∀ slot, slots.get? entry.name = some slot →
      ∀ previous ∈ slot.entries, previous.name = entry.name :=
    fun slot hslot => h _ (Table.get?_eq_some_iff.1 hslot)
  rw [FlatMap.Step.addEntry]
  split
  next previous hslot =>
    refine h.insert fun other hother => ?_
    rcases List.mem_append.1 hother with hother | hother
    · exact hprevious _ hslot other hother
    · rw [List.mem_singleton.1 hother]
  next previous hslot =>
    refine h.insert fun other hother => ?_
    rcases List.mem_cons.1 hother with rfl | hother
    · exact hprevious _ hslot other (List.mem_singleton_self other)
    · rw [List.mem_singleton.1 hother]
  next =>
    refine h.insert fun other hother => ?_
    rw [List.mem_singleton.1 hother]

/-- A step of the walk keeps all entries named by their slots. -/
theorem NamedBySlot.apply {slots : Table Slot} (h : NamedBySlot slots) (step : FlatMap.Step) :
    NamedBySlot (step.apply slots) := by
  cases step with
  | reserve name =>
    rw [FlatMap.Step.apply]
    split
    · exact h
    · exact h.insert nofun
  | place name node =>
    rw [FlatMap.Step.apply]
    refine h.insert fun entry hentry => ?_
    rw [List.mem_singleton.1 hentry]
    rfl
  | append name node => exact h.addEntry _
  | appendNew name node =>
    rw [FlatMap.Step.apply]
    split
    · exact h
    · exact h.addEntry _

/-- In the flat map of a layer, every entry has the name of its slot. -/
theorem namedBySlot_ofTree (tree : Json) : NamedBySlot (FlatMap.ofTree tree).slots := by
  have hrun : ∀ (steps : List FlatMap.Step) (slots : Table Slot), NamedBySlot slots →
      NamedBySlot (steps.foldl FlatMap.Step.apply slots) := by
    intro steps
    induction steps with
    | nil => exact fun _ h => h
    | cons step rest ih => exact fun slots h => ih _ (h.apply step)
  exact hrun _ _ nofun

/-! ### Entries and slots -/

/-- The entry resolves without a fault. -/
def Entry.Resolves (entry : Entry) : Prop :=
  ∃ d?, entry.resolve = .ok d?

/-- The directive that an entry resolves to, if it resolves to one. -/
def Entry.directive? (entry : Entry) : Option Directive :=
  entry.resolve.toOption.join

/-- The directive of a slot, made of those that its entries resolve to. -/
def Slot.directive? : Slot → Option Directive
  | .single entry => entry.directive?
  | .many entries => Directive.ofList? (entries.filterMap Entry.directive?)

/-- The result of resolving an entry is its directive unless there is a fault. -/
theorem Entry.resolve_eq_ok_iff :
    entry.resolve = .ok d? ↔ entry.Resolves ∧ entry.directive? = d? := by
  rw [Entry.Resolves, Entry.directive?]
  cases entry.resolve with
  | error fault => simp
  | ok d => simp [Except.toOption]

/-- An entry has a directive exactly when it resolves to it. -/
theorem Entry.directive?_eq_some_iff {d : Directive} :
    entry.directive? = some d ↔ entry.resolve = .ok (some d) := by
  rw [Entry.directive?]
  cases entry.resolve with
  | error fault => simp [Except.toOption]
  | ok d' => simp [Except.toOption]

/-- The directive of an entry is made under its name. -/
theorem Entry.madeUnder_of_directive? {d : Directive} (h : entry.directive? = some d) :
    d.MadeUnder entry.name := by
  rw [Entry.directive?_eq_some_iff, Entry.resolve] at h
  split at h
  · cases h
  · exact Directive.madeUnder_of_ofConfig h

/-- Entries resolve together when each of them does, to the directives that they have. -/
theorem resolveAll_eq_ok_iff : resolveAll entries = .ok ds ↔
    (∀ entry ∈ entries, entry.Resolves) ∧ entries.filterMap Entry.directive? = ds := by
  induction entries generalizing ds with
  | nil =>
    rw [resolveAll, Except.ok.injEq]
    simp
  | cons entry rest ih =>
    rw [resolveAll, Results.bind_eq_ok_iff, List.forall_mem_cons]
    have hcons : (entry :: rest).filterMap Entry.directive? =
        entry.directive?.toList ++ rest.filterMap Entry.directive? := by
      cases h : entry.directive? <;> simp [h]
    rw [hcons]
    constructor
    · rintro ⟨first, hfirst, h⟩
      obtain ⟨others, hothers, h⟩ := Results.bind_eq_ok_iff.1 h
      obtain ⟨hentry, rfl⟩ := Entry.resolve_eq_ok_iff.1 hfirst
      obtain ⟨hrest, rfl⟩ := ih.1 hothers
      exact ⟨⟨hentry, hrest⟩, Except.ok.inj h⟩
    · rintro ⟨⟨hentry, hrest⟩, rfl⟩
      exact ⟨_, Entry.resolve_eq_ok_iff.2 ⟨hentry, rfl⟩,
        Results.bind_eq_ok_iff.2 ⟨_, ih.2 ⟨hrest, rfl⟩, rfl⟩⟩

/-- A slot resolves when all of its entries do. -/
theorem Slot.resolve_eq_ok_iff : slot.resolve = .ok d? ↔
    (∀ entry ∈ slot.entries, entry.Resolves) ∧ slot.directive? = d? := by
  cases slot with
  | single entry => simp [Slot.resolve, Slot.entries, Slot.directive?, Entry.resolve_eq_ok_iff]
  | many entries =>
    rw [Slot.resolve, Results.map_eq_ok_iff, Slot.entries, Slot.directive?]
    constructor
    · rintro ⟨ds, hds, rfl⟩
      obtain ⟨hentries, rfl⟩ := resolveAll_eq_ok_iff.1 hds
      exact ⟨hentries, rfl⟩
    · rintro ⟨hentries, rfl⟩
      exact ⟨_, resolveAll_eq_ok_iff.2 ⟨hentries, rfl⟩, rfl⟩

/-- A slot has a directive exactly when one of its entries has. -/
theorem Slot.isSome_directive?_iff : slot.directive?.isSome = true ↔
    ∃ entry ∈ slot.entries, ∃ d, entry.resolve = .ok (some d) := by
  simp only [← Entry.directive?_eq_some_iff, ← Option.isSome_iff_exists]
  cases slot with
  | single entry => simp [Slot.directive?, Slot.entries]
  | many entries =>
    rw [Slot.directive?, Slot.entries]
    cases hds : entries.filterMap Entry.directive? with
    | nil =>
      rw [List.filterMap_eq_nil_iff] at hds
      simpa [Directive.ofList?] using hds
    | cons d rest =>
      have hd : d ∈ entries.filterMap Entry.directive? := by simp [hds]
      obtain ⟨entry, hentry, hd⟩ := List.mem_filterMap.1 hd
      exact iff_of_true rfl ⟨entry, hentry, by rw [hd]; rfl⟩

/-! ### Directive maps -/

namespace DirectiveMap

/-- Slots with new names are entered in order, those of them that have a directive. -/
theorem addSlots_eq_ok_iff {slots : List (String × Slot)} {directives result : DirectiveMap}
    (hnew : ∀ e ∈ slots, directives.get? e.1 = none) (hnodup : (slots.map Prod.fst).Nodup) :
    addSlots directives slots = .ok result ↔
      (∀ e ∈ slots, ∀ entry ∈ e.2.entries, entry.Resolves) ∧
        result.entries = directives.entries ++
          slots.filterMap fun e => e.2.directive?.map fun d => (e.1, d) := by
  induction slots generalizing directives with
  | nil =>
    rw [addSlots, Except.ok.injEq, Table.ext_iff]
    simp [eq_comm]
  | cons e rest ih =>
    obtain ⟨name, slot⟩ := e
    obtain ⟨hname, hrest⟩ := List.forall_mem_cons.1 hnew
    rw [List.map_cons, List.nodup_cons] at hnodup
    rw [addSlots, Results.bind_eq_ok_iff, List.forall_mem_cons]
    simp only [Slot.resolve_eq_ok_iff, and_assoc, exists_and_left, exists_eq_left']
    refine and_congr_right fun _ => ?_
    cases hd : slot.directive? with
    | none => simpa [hd] using ih hrest hnodup.2
    | some d =>
      have hothers : ∀ e ∈ rest, (directives.insert name d).get? e.1 = none := by
        intro e he
        have hne : e.1 ≠ name := fun heq => hnodup.1 (List.mem_map.2 ⟨e, he, heq⟩)
        rw [Table.get?_insert, if_neg hne]
        exact hrest e he
      have hadded := ih hothers hnodup.2
      rw [Table.entries_insert_of_get?_eq_none d hname] at hadded
      simpa [hd] using hadded

/-- A flat map resolves when all entries of its slots do, to the directives of its slots in
order. -/
theorem ofFlatMap_eq_ok_iff {flat : FlatMap} {directives : DirectiveMap} :
    ofFlatMap flat = .ok directives ↔
      (∀ slot ∈ flat.slots.values, ∀ entry ∈ slot.entries, entry.Resolves) ∧
        directives.entries =
          flat.slots.entries.filterMap fun e => e.2.directive?.map fun d => (e.1, d) := by
  have hslots : (∀ e ∈ flat.slots.entries, ∀ entry ∈ e.2.entries, entry.Resolves) ↔
      ∀ slot ∈ flat.slots.values, ∀ entry ∈ slot.entries, entry.Resolves := by
    rw [Table.values, List.forall_mem_map]
  rw [ofFlatMap, addSlots_eq_ok_iff (fun _ _ => rfl) flat.slots.nodup, hslots]
  rfl

/-- What the directives of a layer have in common with its flat map. -/
structure ResolvedFrom (flat : FlatMap) (directives : DirectiveMap) : Prop where
  /-- A name is present when some entry of its slot resolves to a directive. -/
  present : ∀ name, name ∈ directives.keys ↔ ∃ slot, flat.get? name = some slot ∧
    ∃ entry ∈ slot.entries, ∃ d, entry.resolve = .ok (some d)
  /-- The names keep their order. -/
  order : directives.keys.Sublist flat.slots.keys
  /-- A single entry resolves to the directive under its name, which is no list. -/
  single : ∀ name d entry, directives.get? name = some d →
    flat.get? name = some (.single entry) → entry.resolve = .ok (some d) ∧ d.isList = false
  /-- Several entries resolve to the list of their directives, of which there is at least one. -/
  many : ∀ name d entries, directives.get? name = some d →
    flat.get? name = some (.many entries) →
      ∃ ds, d = .list name ds ∧ ds ≠ [] ∧ ds = entries.filterMap Entry.directive?
  /-- A directive and all that it is made of have the name under which it is found, and lists are
  only found at the top. -/
  nested : ∀ name d, directives.get? name = some d → d.Nested name

variable {flat : FlatMap} {directives : DirectiveMap} {d : Directive}

/-- What is found under a name is the directive of its slot. -/
theorem get?_eq_some_iff (h : ofFlatMap flat = .ok directives) : directives.get? name = some d ↔
    ∃ slot, flat.get? name = some slot ∧ slot.directive? = some d := by
  rw [Table.get?_eq_some_iff, (ofFlatMap_eq_ok_iff.1 h).2, List.mem_filterMap]
  simp only [Option.map_eq_some_iff, Prod.mk.injEq, FlatMap.get?, Table.get?_eq_some_iff]
  constructor
  · rintro ⟨⟨_, slot⟩, hslot, _, hd, rfl, rfl⟩
    exact ⟨slot, hslot, hd⟩
  · rintro ⟨slot, hslot, hd⟩
    exact ⟨(name, slot), hslot, d, hd, rfl, rfl⟩

/-- The names of the slots with a directive stand in the order of the slots. -/
theorem map_fst_sublist (slots : List (String × Slot)) :
    ((slots.filterMap fun e => e.2.directive?.map fun d => (e.1, d)).map Prod.fst).Sublist
      (slots.map Prod.fst) :=
  Table.map_fst_filterMap_sublist slots fun e => e.2.directive?

/-- Where every entry resolves, there are directives. -/
theorem exists_ofFlatMap_eq_ok
    (h : ∀ slot ∈ flat.slots.values, ∀ entry ∈ slot.entries, entry.Resolves) :
    ∃ directives, ofFlatMap flat = .ok directives :=
  ⟨⟨_, (map_fst_sublist flat.slots.entries).nodup flat.slots.nodup⟩,
    ofFlatMap_eq_ok_iff.2 ⟨h, rfl⟩⟩

/-- What an entry of a slot resolves to is made under the name of the slot. -/
theorem madeUnder_of_mem_entries (hnamed : NamedBySlot flat.slots)
    (hslot : flat.get? name = some slot) (hentry : entry ∈ slot.entries)
    (hd : entry.directive? = some d) : d.MadeUnder name := by
  have hname : entry.name = name := hnamed _ (Table.get?_eq_some_iff.1 hslot) entry hentry
  exact hname ▸ Entry.madeUnder_of_directive? hd

/-- Several entries have the list of their directives, under the name of the slot. -/
theorem eq_list_of_many (hnamed : NamedBySlot flat.slots)
    (hslot : flat.get? name = some (.many entries))
    (hd : (Slot.many entries).directive? = some d) :
    d = .list name (entries.filterMap Entry.directive?) ∧
      entries.filterMap Entry.directive? ≠ [] := by
  rw [Slot.directive?] at hd
  cases hds : entries.filterMap Entry.directive? with
  | nil =>
    rw [hds] at hd
    cases hd
  | cons first rest =>
    have hfirst : first ∈ entries.filterMap Entry.directive? := by simp [hds]
    obtain ⟨entry, hentry, hdirective⟩ := List.mem_filterMap.1 hfirst
    have hname : first.name = name :=
      (madeUnder_of_mem_entries hnamed hslot hentry hdirective 0 first List.mem_cons_self).1
    rw [hds, Directive.ofList?, hname] at hd
    exact ⟨(Option.some.inj hd).symm, List.cons_ne_nil _ _⟩

/-- The directives of a flat map whose entries have the names of their slots. -/
theorem resolvedFrom_of_namedBySlot (hnamed : NamedBySlot flat.slots)
    (h : ofFlatMap flat = .ok directives) : ResolvedFrom flat directives := by
  refine ⟨?_, ?_, ?_, ?_, ?_⟩
  · intro name
    rw [← Table.isSome_get?_iff, Option.isSome_iff_exists]
    simp only [get?_eq_some_iff h, ← Slot.isSome_directive?_iff, Option.isSome_iff_exists]
    constructor
    · rintro ⟨d, slot, hslot, hd⟩
      exact ⟨slot, hslot, d, hd⟩
    · rintro ⟨slot, hslot, d, hd⟩
      exact ⟨d, slot, hslot, hd⟩
  · rw [Table.keys, (ofFlatMap_eq_ok_iff.1 h).2, Table.keys]
    exact map_fst_sublist flat.slots.entries
  · intro name d entry hget hslot
    obtain ⟨slot, hslot', hd⟩ := (get?_eq_some_iff h).1 hget
    obtain rfl := Option.some.inj (hslot'.symm.trans hslot)
    have hmade : d.MadeUnder name :=
      madeUnder_of_mem_entries hnamed hslot (List.mem_singleton_self entry) hd
    exact ⟨Entry.directive?_eq_some_iff.1 hd, (hmade 0 d List.mem_cons_self).2⟩
  · intro name d entries hget hslot
    obtain ⟨slot, hslot', hd⟩ := (get?_eq_some_iff h).1 hget
    obtain rfl := Option.some.inj (hslot'.symm.trans hslot)
    obtain ⟨hlist, hne⟩ := eq_list_of_many hnamed hslot hd
    exact ⟨_, hlist, hne, rfl⟩
  · intro name d hget
    obtain ⟨slot, hslot, hd⟩ := (get?_eq_some_iff h).1 hget
    cases slot with
    | single entry =>
      exact (madeUnder_of_mem_entries hnamed hslot (List.mem_singleton_self entry) hd).nested
    | many entries =>
      obtain ⟨rfl, -⟩ := eq_list_of_many hnamed hslot hd
      refine Directive.nested_list fun b hb => ?_
      obtain ⟨entry, hentry, hdirective⟩ := List.mem_filterMap.1 hb
      exact madeUnder_of_mem_entries hnamed hslot hentry hdirective

/-- When a layer has directives, and which. It has them when every entry of every slot of its flat
map resolves without a fault. Then the names with some entry that resolves to a directive have it,
in the order of the flat map; a slot with several entries has the list of what they resolve to; and
everything below a directive has its name, with no list in it. -/
theorem ofFlatMap_ofTree (tree : Json) :
    ((∃ directives, ofFlatMap (FlatMap.ofTree tree) = .ok directives) ↔
      ∀ slot ∈ (FlatMap.ofTree tree).slots.values, ∀ entry ∈ slot.entries,
        ∃ d?, entry.resolve = .ok d?) ∧
    ∀ directives, ofFlatMap (FlatMap.ofTree tree) = .ok directives →
      ResolvedFrom (FlatMap.ofTree tree) directives := by
  refine ⟨⟨?_, exists_ofFlatMap_eq_ok⟩,
    fun directives h => resolvedFrom_of_namedBySlot (namedBySlot_ofTree tree) h⟩
  rintro ⟨directives, h⟩
  exact (ofFlatMap_eq_ok_iff.1 h).1

/-- A layer with the list `D`, whose items have a choice, nothing and a constant under `R`. -/
def choicesLayer : Json :=
  .object [("D", .array
    [.object [("R", .object [(Key.dispatcher, .object [("selector", .string "s"),
      ("options", .array [.object [(Key.constants, .null)]])])])],
    .object [("R", .object [])], .object [("R", .bool true)]])]

/-- The choice and the constant are listed under the name of the slot. -/
theorem ofFlatMap_ofTree_choicesLayer : ∃ directives,
    ofFlatMap (FlatMap.ofTree choicesLayer) = .ok directives ∧
      directives.entries = [("D_R", .list "D_R"
        [.dispatcher "D_R" "s" [.constant "D_R" .null], .constant "D_R" (.bool true)])] ∧
      ResolvedFrom (FlatMap.ofTree choicesLayer) directives := by
  have hentries : (ofFlatMap (FlatMap.ofTree choicesLayer)).toOption.map Table.entries =
      some [("D_R", .list "D_R"
        [.dispatcher "D_R" "s" [.constant "D_R" .null], .constant "D_R" (.bool true)])] := by cbv
  obtain ⟨directives, hdirectives, hentries⟩ := Option.map_eq_some_iff.1 hentries
  have hok := Results.toOption_eq_some_iff.1 hdirectives
  exact ⟨directives, hok, hentries, (ofFlatMap_ofTree choicesLayer).2 directives hok⟩

end DirectiveMap

end SignalSchema.Deploy
