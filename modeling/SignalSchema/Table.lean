/-!
# Tables in insertion order

A table maps names to values and remembers the order in which the names were first
entered. Entering a name again keeps its place and replaces its value, so the listing
of a table is decided by first appearances and its values by last ones.
-/

namespace SignalSchema

/-- A finite map from names to values, listed in the order of first insertion. -/
@[ext] structure Table (α : Type) where
  /-- The entries in order. -/
  entries : List (String × α)
  /-- Every name has one entry. -/
  nodup : (entries.map Prod.fst).Nodup

namespace Table

variable {α β : Type}

/-- The names of the table in order. -/
def keys (t : Table α) : List String :=
  t.entries.map Prod.fst

/-- The values of the table in the order of their names. -/
def values (t : Table α) : List α :=
  t.entries.map Prod.snd

/-- The number of names. -/
def size (t : Table α) : Nat :=
  t.entries.length

/-- Whether no name has been entered. -/
def isEmpty (t : Table α) : Bool :=
  t.entries.isEmpty

/-- The table without entries. -/
def empty : Table α where
  entries := []
  nodup := List.nodup_nil

instance : Inhabited (Table α) := ⟨empty⟩

/-- The value entered under `key`, if any. -/
def get? (t : Table α) (key : String) : Option α :=
  t.entries.lookup key

/-- Whether `key` has been entered. -/
def contains (t : Table α) (key : String) : Bool :=
  t.entries.any (·.1 == key)

/-- The entries after `key` was given the value `v`. -/
def put (key : String) (v : α) : List (String × α) → List (String × α)
  | [] => [(key, v)]
  | e :: rest => if e.1 = key then (key, v) :: rest else e :: put key v rest

theorem mem_keys_put {key : String} {v : α} {es : List (String × α)} {k : String} :
    k ∈ (put key v es).map Prod.fst ↔ k = key ∨ k ∈ es.map Prod.fst := by
  induction es with
  | nil => simp [put]
  | cons e rest ih =>
    by_cases h : e.1 = key
    · subst h; simp [put]
    · simp only [put, if_neg h, List.map_cons, List.mem_cons, ih]
      constructor
      · rintro (h | h | h) <;> simp [h]
      · rintro (h | h | h) <;> simp [h]

theorem nodup_put {key : String} {v : α} {es : List (String × α)}
    (h : (es.map Prod.fst).Nodup) : ((put key v es).map Prod.fst).Nodup := by
  induction es with
  | nil => simp [put]
  | cons e rest ih =>
    rw [List.map_cons, List.nodup_cons] at h
    by_cases hk : e.1 = key
    · subst hk
      simpa [put] using h
    · simp only [put, if_neg hk, List.map_cons, List.nodup_cons]
      refine ⟨fun hm => ?_, ih h.2⟩
      rcases mem_keys_put.1 hm with he | he
      · exact hk he
      · exact h.1 he

/-- Gives `key` the value `v`: in its old place if it has one, at the end otherwise. -/
def insert (t : Table α) (key : String) (v : α) : Table α where
  entries := put key v t.entries
  nodup := nodup_put t.nodup

/-- The table without the entry of `key`. -/
def erase (t : Table α) (key : String) : Table α where
  entries := t.entries.filter (·.1 ≠ key)
  nodup := (List.filter_sublist.map Prod.fst).nodup t.nodup

/-- The table that results from entering the pairs one after the other. -/
def ofList (es : List (String × α)) : Table α :=
  es.foldl (fun t e => t.insert e.1 e.2) empty

@[simp] theorem entries_insert (t : Table α) (key : String) (v : α) :
    (t.insert key v).entries = put key v t.entries := rfl

/-! ### What is found in a table -/

/-- Looking up a name finds exactly what is listed under it. -/
theorem get?_eq_some_iff {t : Table α} {key : String} {v : α} :
    t.get? key = some v ↔ (key, v) ∈ t.entries := by
  obtain ⟨es, hes⟩ := t
  simp only [get?]
  induction es with
  | nil => simp
  | cons e rest ih =>
    obtain ⟨k, w⟩ := e
    rw [List.map_cons, List.nodup_cons] at hes
    by_cases hk : key = k
    · subst hk
      have hrest : (key, v) ∉ rest := fun h => hes.1 (List.mem_map.2 ⟨_, h, rfl⟩)
      simp [hrest, eq_comm]
    · have hlookup : ((k, w) :: rest).lookup key = rest.lookup key := by
        rw [List.lookup_cons, beq_false_of_ne hk]
      rw [hlookup, ih hes.2, List.mem_cons]
      simp [hk]

/-- A name finds something exactly when it is one of the names of the table. -/
theorem isSome_get?_iff {t : Table α} {key : String} :
    (t.get? key).isSome = true ↔ key ∈ t.keys := by
  rw [Option.isSome_iff_exists]
  simp only [get?_eq_some_iff, keys, List.mem_map]
  constructor
  · rintro ⟨v, h⟩
    exact ⟨(key, v), h, rfl⟩
  · rintro ⟨⟨k, v⟩, h, rfl⟩
    exact ⟨v, h⟩

/-- The membership test agrees with looking up. -/
theorem contains_eq_isSome_get? (t : Table α) (key : String) :
    t.contains key = (t.get? key).isSome := by
  rw [Bool.eq_iff_iff, isSome_get?_iff]
  simp [contains, keys, List.any_eq_true]

/-- An entered value is found under its name, and all other names find what they found before. -/
theorem get?_insert (t : Table α) (key k : String) (v : α) :
    (t.insert key v).get? k = if k = key then some v else t.get? k := by
  obtain ⟨es, hes⟩ := t
  simp only [get?, insert]
  clear hes
  induction es with
  | nil =>
    by_cases hk : k = key
    · simp [put, hk]
    · simp [put, List.lookup_cons, beq_false_of_ne hk, hk]
  | cons e rest ih =>
    obtain ⟨k', w⟩ := e
    by_cases hput : k' = key
    · subst hput
      by_cases hk : k = k'
      · simp [put, hk]
      · simp [put, List.lookup_cons, beq_false_of_ne hk, hk]
    · rw [put, if_neg hput, List.lookup_cons, List.lookup_cons, ih]
      by_cases hk : k = k'
      · subst hk
        simp [hput]
      · simp [beq_false_of_ne hk]

/-- An erased name finds nothing, and all other names find what they found before. -/
theorem get?_erase (t : Table α) (key k : String) :
    (t.erase key).get? k = if k = key then none else t.get? k := by
  apply Option.ext
  intro v
  by_cases hk : k = key
  · rw [get?_eq_some_iff]
    simp [hk, erase]
  · rw [if_neg hk, get?_eq_some_iff, get?_eq_some_iff]
    simp [hk, erase]

/-- A new name is listed at the end. -/
theorem entries_insert_of_get?_eq_none {t : Table α} {key : String} (v : α)
    (h : t.get? key = none) : (t.insert key v).entries = t.entries ++ [(key, v)] := by
  have hkey : key ∉ t.keys := by
    rw [← isSome_get?_iff, h]
    simp
  obtain ⟨es, hes⟩ := t
  simp only [entries_insert, keys] at hkey ⊢
  clear h hes
  induction es with
  | nil => rfl
  | cons e rest ih =>
    rw [List.map_cons, List.mem_cons, not_or] at hkey
    rw [put, if_neg (Ne.symm hkey.1), ih hkey.2, List.cons_append]

/-- A name keeps its place when it is entered again, and gets the last place when it is new. -/
theorem keys_insert (t : Table α) (key : String) (v : α) :
    (t.insert key v).keys = if key ∈ t.keys then t.keys else t.keys ++ [key] := by
  unfold keys
  rw [entries_insert]
  generalize t.entries = es
  induction es with
  | nil => rfl
  | cons e rest ih =>
    rw [put]
    by_cases hkey : e.1 = key
    · simp [hkey]
    · have hmem : key ∈ (e :: rest).map Prod.fst ↔ key ∈ rest.map Prod.fst := by
        simp [Ne.symm hkey]
      rw [if_neg hkey, List.map_cons, ih]
      by_cases hrest : key ∈ rest.map Prod.fst
      · rw [if_pos hrest, if_pos (hmem.2 hrest), List.map_cons]
      · rw [if_neg hrest, if_neg (mt hmem.1 hrest), List.map_cons, List.cons_append]

/-- What is listed after a pair was entered is the pair or was listed before. -/
theorem mem_entries_insert {t : Table α} {key : String} {v : α} {e : String × α}
    (h : e ∈ (t.insert key v).entries) : e = (key, v) ∨ e ∈ t.entries := by
  obtain ⟨es, hes⟩ := t
  rw [entries_insert] at h
  dsimp only at h ⊢
  clear hes
  induction es with
  | nil => exact .inl (List.mem_singleton.1 h)
  | cons first rest ih =>
    rw [put] at h
    split at h
    · rcases List.mem_cons.1 h with rfl | h
      · exact .inl rfl
      · exact .inr (List.mem_cons_of_mem _ h)
    · rcases List.mem_cons.1 h with rfl | h
      · exact .inr List.mem_cons_self
      · exact (ih h).imp_right (List.mem_cons_of_mem _)

/-- A table lists only pairs that were entered. -/
theorem mem_of_mem_entries_ofList {es : List (String × α)} {e : String × α}
    (h : e ∈ (ofList es).entries) : e ∈ es := by
  suffices ∀ t : Table α, e ∈ (es.foldl (fun t e => t.insert e.1 e.2) t).entries →
      e ∈ es ∨ e ∈ t.entries by
    rcases this empty h with h | h
    · exact h
    · cases h
  clear h
  induction es with
  | nil => exact fun t h => .inr h
  | cons first rest ih =>
    intro t h
    rcases ih _ h with h | h
    · exact .inl (List.mem_cons_of_mem _ h)
    · rcases mem_entries_insert h with rfl | h
      · exact .inl List.mem_cons_self
      · exact .inr h

/-- Entering pairs with distinct names lists them as they are. -/
theorem entries_ofList {es : List (String × α)} (h : (es.map Prod.fst).Nodup) :
    (ofList es).entries = es := by
  suffices ∀ t : Table α, ((t.entries ++ es).map Prod.fst).Nodup →
      (es.foldl (fun t e => t.insert e.1 e.2) t).entries = t.entries ++ es by
    simpa [ofList, empty] using this empty (by simpa [empty] using h)
  clear h
  induction es with
  | nil => intro t _; simp
  | cons e rest ih =>
    intro t ht
    have hnew : t.get? e.1 = none := by
      rw [← Option.not_isSome_iff_eq_none, isSome_get?_iff]
      rw [List.map_append, List.nodup_append] at ht
      exact fun hmem => ht.2.2 _ hmem _ (by simp) rfl
    have hinsert := entries_insert_of_get?_eq_none e.2 hnew
    rw [List.foldl_cons, ih, hinsert, List.append_assoc, List.singleton_append]
    rw [hinsert, List.append_assoc, List.singleton_append]
    exact ht

/-- Entering values under their own names lists them as they are if the names are distinct. -/
theorem entries_ofList_map {xs : List α} {name : α → String} (h : (xs.map name).Nodup) :
    (ofList (xs.map fun x => (name x, x))).entries = xs.map fun x => (name x, x) := by
  apply entries_ofList
  rwa [List.map_map]

/-- Replacing entries by others of the same names, or by none, keeps the order of the names. -/
theorem map_fst_filterMap_sublist (es : List (String × α)) (f : String × α → Option β) :
    ((es.filterMap fun e => (f e).map fun b => (e.1, b)).map Prod.fst).Sublist
      (es.map Prod.fst) := by
  induction es with
  | nil => exact .slnil
  | cons e rest ih =>
    rw [List.filterMap_cons]
    cases f e with
    | none => exact ih.cons _
    | some b => exact ih.cons_cons _

end Table

end SignalSchema
