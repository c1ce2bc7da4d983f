import SignalSchema.Permission.Declared

/-!
# Numbers that are never given again

Registering permissions only appends to a table, and the numbers it appends are greater than all
numbers before them. `Table.Continues` is this relation between an earlier and a later table. It
is an order, it keeps every number with its permission, and it is what a registry does to its
table as long as its next number is the one that its table asks for (`Registry.Consistent`).
-/

namespace SignalSchema

namespace Table

variable {a b c : Table Nat} {permission other : String} {n : Nat}

/-- One table of numbers continues another: it lists the entries of the other first and then
only new numbers, greater than the old ones and increasing. -/
def Continues (old new : Table Nat) : Prop :=
  ∃ added, new.entries = old.entries ++ added ∧ (added.map Prod.snd).Pairwise (· < ·) ∧
    ∀ n ∈ old.values, ∀ m ∈ added.map Prod.snd, n < m

namespace Continues

/-- Every table continues itself. -/
theorem refl (a : Table Nat) : a.Continues a :=
  ⟨[], (List.append_nil _).symm, List.Pairwise.nil, by simp⟩

/-- What continues a continuation continues the first table. -/
theorem trans (hab : a.Continues b) (hbc : b.Continues c) : a.Continues c := by
  obtain ⟨first, hb, hfirst, hlow⟩ := hab
  obtain ⟨second, hc, hsecond, hhigh⟩ := hbc
  have hvalues : b.values = a.values ++ first.map Prod.snd := by
    rw [values, values, hb, List.map_append]
  rw [hvalues] at hhigh
  refine ⟨first ++ second, by rw [hc, hb, List.append_assoc], ?_, ?_⟩
  · rw [List.map_append, List.pairwise_append]
    exact ⟨hfirst, hsecond, fun n hn => hhigh n (List.mem_append_right _ hn)⟩
  · intro n hn m hm
    rw [List.map_append, List.mem_append] at hm
    rcases hm with hm | hm
    · exact hlow n hn m hm
    · exact hhigh n (List.mem_append_left _ hn) m hm

/-- The earlier table is an initial segment of the later one. -/
theorem isPrefix (h : a.Continues b) : a.entries <+: b.entries := by
  obtain ⟨added, hb, -, -⟩ := h
  exact ⟨added, hb.symm⟩

/-- A permission keeps its number. -/
theorem get?_eq_some (h : a.Continues b) (hget : a.get? permission = some n) :
    b.get? permission = some n := by
  rw [get?_eq_some_iff] at hget ⊢
  exact h.isPrefix.subset hget

/-- A number that is in the earlier table goes to no other permission. -/
theorem get?_eq_some_of_mem (h : a.Continues b) (hn : n ∈ a.values)
    (hget : b.get? permission = some n) : a.get? permission = some n := by
  obtain ⟨added, hb, -, hlow⟩ := h
  rw [get?_eq_some_iff] at hget ⊢
  rw [hb, List.mem_append] at hget
  rcases hget with hget | hget
  · exact hget
  · exact absurd (hlow n hn n (List.mem_map.2 ⟨_, hget, rfl⟩)) (Nat.lt_irrefl n)

/-- Numbers that are all different stay so. -/
theorem nodup_values (h : a.Continues b) (ha : a.values.Nodup) : b.values.Nodup := by
  obtain ⟨added, hb, hadded, hlow⟩ := h
  rw [values, hb, List.map_append, List.nodup_append]
  refine ⟨ha, hadded.imp Nat.ne_of_lt, ?_⟩
  rintro n hn m hm rfl
  exact Nat.lt_irrefl n (hlow n hn n hm)

end Continues

end Table

namespace Registry

variable {registry other : Registry}

/-- The greatest number of a list decides where counting goes on. -/
theorem foldl_max_succ_lt_iff {ns : List Nat} {start n : Nat} :
    ns.foldl (fun next id => max next (id + 1)) start ≤ n ↔ start ≤ n ∧ ∀ m ∈ ns, m < n := by
  induction ns generalizing start with
  | nil => simp
  | cons m ms ih =>
    rw [List.foldl_cons, ih, List.forall_mem_cons, Nat.max_le, and_assoc, Nat.succ_le_iff]

/-- The numbers of a table are below the next one. -/
theorem lt_next_ofTable {table : Table Nat} {n : Nat} (h : n ∈ table.values) :
    n < (ofTable table).next :=
  (foldl_max_succ_lt_iff.1 (Nat.le_refl _)).2 n h

/-- A registry is consistent when it goes on counting where its table asks it to. -/
def Consistent (registry : Registry) : Prop :=
  registry.next = (ofTable registry.table).next

/-- A registry made from a table is consistent. -/
theorem consistent_ofTable (table : Table Nat) : (ofTable table).Consistent := rfl

/-! ### Registering -/

/-- Registering a permission does nothing if it has a number, and lists it last with the next
number otherwise. -/
theorem register_cases (registry : Registry) (permission : String) :
    ((registry.get? permission).isSome = true ∧ registry.register permission = registry) ∨
      registry.get? permission = none ∧
        (registry.register permission).table.entries =
          registry.table.entries ++ [(permission, registry.next)] ∧
        (registry.register permission).next = registry.next + 1 ∧
        (registry.register permission).changed = true := by
  cases hget : registry.get? permission with
  | some n =>
    left
    rw [register, hget]
    exact ⟨rfl, rfl⟩
  | none =>
    right
    rw [register, hget]
    exact ⟨rfl, Table.entries_insert_of_get?_eq_none _ hget, rfl, rfl⟩

/-- Registering a permission keeps a registry consistent. -/
theorem Consistent.register (h : registry.Consistent) (permission : String) :
    (registry.register permission).Consistent := by
  obtain ⟨-, heq⟩ | ⟨-, hentries, hnext, -⟩ := register_cases registry permission
  · rwa [heq]
  rw [Consistent, hnext, ofTable, Table.values, hentries, List.map_append, List.foldl_append]
  have hfold : registry.next = registry.table.values.foldl
    (fun next id => max next (id + 1)) 0 := h
  rw [Table.values] at hfold
  simp [← hfold]

/-- Registering a permission continues the table. -/
theorem Consistent.continues_register (h : registry.Consistent) (permission : String) :
    registry.table.Continues (registry.register permission).table := by
  obtain ⟨-, heq⟩ | ⟨-, hentries, -, -⟩ := register_cases registry permission
  · rw [heq]
    exact Table.Continues.refl _
  refine ⟨[(permission, registry.next)], hentries, List.pairwise_singleton _ _, ?_⟩
  intro n hn m hm
  rw [List.map_singleton, List.mem_singleton] at hm
  rw [hm, h]
  exact lt_next_ofTable hn

/-- A registry that reports no change after a permission was registered has not changed. -/
theorem register_eq_of_not_changed {permission : String}
    (h : (registry.register permission).changed = false) :
    registry.register permission = registry := by
  obtain ⟨-, heq⟩ | ⟨-, -, -, hchanged⟩ := register_cases registry permission
  · exact heq
  · rw [hchanged] at h
    cases h

/-- Registering permissions keeps a registry consistent. -/
theorem Consistent.registerAll (h : registry.Consistent) (permissions : List String) :
    (registry.registerAll permissions).Consistent := by
  induction permissions generalizing registry with
  | nil => exact h
  | cons permission rest ih => exact ih (h.register permission)

/-- Registering permissions continues the table. -/
theorem Consistent.continues_registerAll (h : registry.Consistent) (permissions : List String) :
    registry.table.Continues (registry.registerAll permissions).table := by
  induction permissions generalizing registry with
  | nil => exact Table.Continues.refl _
  | cons permission rest ih =>
    exact (h.continues_register permission).trans (ih (h.register permission))

/-- A registry that reports no change after permissions were registered has not changed. -/
theorem registerAll_eq_of_not_changed {permissions : List String}
    (h : (registry.registerAll permissions).changed = false) :
    registry.registerAll permissions = registry := by
  induction permissions generalizing registry with
  | nil => rfl
  | cons permission rest ih =>
    have hrest : (registry.register permission).registerAll rest = registry.register permission :=
      ih h
    have heq : registry.registerAll (permission :: rest) = registry.register permission := hrest
    rw [heq] at h ⊢
    exact register_eq_of_not_changed h

/-- A registry only comes to report a change by a permission that had no number. -/
theorem exists_get?_eq_none_of_changed {permissions : List String}
    (h : (registry.registerAll permissions).changed = true) (hbefore : registry.changed = false) :
    ∃ permission ∈ permissions, registry.get? permission = none := by
  induction permissions generalizing registry with
  | nil =>
    have hnothing : registry.changed = true := h
    rw [hbefore] at hnothing
    cases hnothing
  | cons permission rest ih =>
    obtain ⟨-, heq⟩ | ⟨hnone, -⟩ := register_cases registry permission
    · have hrest : (registry.registerAll rest).changed = true := by
        rw [← heq]
        exact h
      obtain ⟨other, hother, hnone⟩ := ih hrest hbefore
      exact ⟨other, List.mem_cons_of_mem _ hother, hnone⟩
    · exact ⟨permission, List.mem_cons_self, hnone⟩

/-- A registered permission has a number, and no other permission gets one. -/
theorem isSome_get?_register (registry : Registry) {permission : String} (other : String) :
    ((registry.register other).get? permission).isSome = true ↔
      (registry.get? permission).isSome = true ∨ permission = other := by
  rw [register]
  split
  · rename_i hsome
    constructor
    · exact .inl
    · rintro (h | rfl)
      · exact h
      · exact hsome
  · rw [get?, Table.get?_insert]
    split
    · simp [*]
    · simp [*, get?]

/-- Registered permissions have numbers, and no others get one. -/
theorem isSome_get?_registerAll (registry : Registry) {permission : String}
    (permissions : List String) :
    ((registry.registerAll permissions).get? permission).isSome = true ↔
      (registry.get? permission).isSome = true ∨ permission ∈ permissions := by
  induction permissions generalizing registry with
  | nil => simp [registerAll]
  | cons other rest ih =>
    have hstep := ih (registry.register other)
    rw [isSome_get?_register] at hstep
    rw [List.mem_cons, ← or_assoc, ← hstep]
    rfl

/-- Registering permissions that have numbers already does nothing. -/
theorem registerAll_eq_of_isSome {permissions : List String}
    (h : ∀ permission ∈ permissions, (registry.get? permission).isSome = true) :
    registry.registerAll permissions = registry := by
  induction permissions with
  | nil => rfl
  | cons permission rest ih =>
    have hfirst : registry.register permission = registry :=
      if_pos (h permission List.mem_cons_self)
    have hrest := ih fun other hother => h other (List.mem_cons_of_mem _ hother)
    change (registry.register permission).registerAll rest = registry
    rw [hfirst, hrest]

/-- Permissions can be registered in two parts. -/
theorem registerAll_append (registry : Registry) (first rest : List String) :
    registry.registerAll (first ++ rest) = (registry.registerAll first).registerAll rest := by
  rw [registerAll, List.foldl_append]
  rfl

/-- What a registry says about changes has no influence on its table. -/
theorem table_registerAll_congr (htable : registry.table = other.table)
    (hnext : registry.next = other.next) (permissions : List String) :
    (registry.registerAll permissions).table = (other.registerAll permissions).table := by
  induction permissions generalizing registry other with
  | nil => exact htable
  | cons permission rest ih =>
    refine ih ?_ ?_
    all_goals
      rw [register, register, get?, get?, htable, hnext]
      split
      · assumption
      · rfl

end Registry

end SignalSchema
