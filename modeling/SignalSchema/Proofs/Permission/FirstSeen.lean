import Mathlib.Data.List.Induction
import SignalSchema.Proofs.Permission.Numbering
import SignalSchema.Proofs.Results
import SignalSchema.Proofs.Table

/-!
# Numbers in the order of first appearance

What a sequence of registrations does to a registry is told without running it: the table that it
was made from is followed by the permissions that the table lacks, each once and where it first
appears, with consecutive numbers from the first one on that is greater than all in the table
(`entries_registerAll`). The table may have gaps, any order and repeated numbers. From this listing
everything else is read off: which numbers the single registrations yield, that a new number occurs
only once, and since when the registry reports a change (`numbered_registerAll`).
-/

namespace SignalSchema.Registry

variable {table : Table Nat} {registry : Registry} {permission : String}

/-- The first number greater than all numbers of a table, 0 if there are none. -/
def firstFree (table : Table Nat) : Nat :=
  match table.values.max? with
  | none => 0
  | some n => n + 1

/-- The permissions that a table lacks, each once and in the order of their first appearance. -/
def unseen (table : Table Nat) (permissions : List String) : List String :=
  (permissions.filter (· ∉ table.keys)).eraseDups

/-- Registering starts with the first free number of the table. -/
theorem next_ofTable (table : Table Nat) : (ofTable table).next = firstFree table := by
  rw [firstFree]
  split
  next hmax =>
    rw [List.max?_eq_none_iff] at hmax
    rw [ofTable, hmax]
    rfl
  next n hmax =>
    obtain ⟨hmem, hle⟩ := List.max?_eq_some_iff.1 hmax
    refine Nat.le_antisymm (foldl_max_succ_lt_iff.2 ⟨Nat.zero_le _, fun m hm => ?_⟩) ?_
    · exact Nat.lt_succ_of_le (hle m hm)
    · exact lt_next_ofTable hmem

/-- The numbers of a table are below its first free number. -/
theorem lt_firstFree {n : Nat} (h : n ∈ table.values) : n < firstFree table := by
  rw [← next_ofTable]
  exact lt_next_ofTable h

/-- A further permission is unseen unless the table has it or it appeared before. -/
theorem unseen_concat (table : Table Nat) (permissions : List String) (permission : String) :
    unseen table (permissions ++ [permission]) =
      if permission ∈ table.keys ∨ permission ∈ permissions then unseen table permissions
      else unseen table permissions ++ [permission] := by
  rw [unseen, unseen, List.filter_append]
  by_cases hkey : permission ∈ table.keys
  · have hnone : [permission].filter (· ∉ table.keys) = [] := by simp [hkey]
    rw [hnone, List.append_nil, if_pos (.inl hkey)]
  · have hsome : [permission].filter (· ∉ table.keys) = [permission] := by simp [hkey]
    rw [hsome, eraseDups_concat]
    simp [hkey]

/-! ### The registry after a sequence of registrations -/

/-- Registrations append the unseen permissions with consecutive numbers. -/
theorem entries_registerAll (table : Table Nat) (permissions : List String) :
    ((ofTable table).registerAll permissions).table.entries =
        table.entries ++ (unseen table permissions).zipIdx (firstFree table) ∧
      ((ofTable table).registerAll permissions).next =
        firstFree table + (unseen table permissions).length := by
  induction permissions using List.reverseRecOn with
  | nil => exact ⟨(List.append_nil _).symm, next_ofTable table⟩
  | append_singleton permissions permission ih =>
    obtain ⟨hentries, hnext⟩ := ih
    have hknown : (((ofTable table).registerAll permissions).get? permission).isSome = true ↔
        permission ∈ table.keys ∨ permission ∈ permissions := by
      rw [isSome_get?_registerAll, ← Table.isSome_get?_iff]
      rfl
    have hstep : (ofTable table).registerAll (permissions ++ [permission]) =
        ((ofTable table).registerAll permissions).register permission :=
      registerAll_append _ permissions [permission]
    rw [hstep, unseen_concat]
    obtain ⟨hsome, heq⟩ | ⟨hnone, hadded, hafter, -⟩ :=
      register_cases ((ofTable table).registerAll permissions) permission
    · rw [if_pos (hknown.1 hsome), heq]
      exact ⟨hentries, hnext⟩
    · rw [hnone] at hknown
      have hfresh : ¬ (permission ∈ table.keys ∨ permission ∈ permissions) :=
        fun h => nomatch hknown.2 h
      rw [if_neg hfresh, List.zipIdx_append, List.length_append]
      refine ⟨?_, ?_⟩
      · exact hadded.trans (by rw [hentries, hnext, List.append_assoc]; rfl)
      · exact hafter.trans (by rw [hnext, Nat.add_assoc]; rfl)

/-- A registered permission has the number that its registration yields. -/
theorem get?_register (registry : Registry) (permission : String) :
    (registry.register permission).get? permission = some (registry.number permission) := by
  rw [register, number]
  split
  next hsome =>
    obtain ⟨n, hn⟩ := Option.isSome_iff_exists.1 hsome
    rw [hn, Option.getD_some]
  next hnone =>
    rw [Option.not_isSome_iff_eq_none.1 hnone, Option.getD_none, get?, Table.get?_insert,
      if_pos rfl]

/-- Every registration yields the number that the permission has at the end. -/
theorem forall₂_numbers (h : registry.Consistent) (permissions : List String) :
    List.Forall₂ (fun permission n => (registry.registerAll permissions).get? permission = some n)
      permissions (registry.numbers permissions) := by
  induction permissions generalizing registry with
  | nil => exact .nil
  | cons permission rest ih =>
    have hrest := h.register permission
    refine .cons ?_ (ih hrest)
    exact (hrest.continues_registerAll rest).get?_eq_some (get?_register registry permission)

/-- A registry made from a table reports a change as soon as there is an unseen permission. -/
theorem changed_registerAll_iff (table : Table Nat) (permissions : List String) :
    ((ofTable table).registerAll permissions).changed = true ↔
      ∃ permission ∈ permissions, permission ∉ table.keys := by
  constructor
  · intro hchanged
    obtain ⟨permission, hmem, hnone⟩ := exists_get?_eq_none_of_changed hchanged rfl
    refine ⟨permission, hmem, fun hkey => ?_⟩
    rw [← Table.isSome_get?_iff] at hkey
    rw [show table.get? permission = none from hnone] at hkey
    cases hkey
  · rintro ⟨permission, hmem, hnew⟩
    by_contra hchanged
    have hsame := registerAll_eq_of_not_changed (Bool.not_eq_true _ ▸ hchanged)
    have hhas := (isSome_get?_registerAll (ofTable table) permissions).2 (.inr hmem)
    rw [hsame] at hhas
    exact hnew (Table.isSome_get?_iff.1 hhas)

/-! ### Main result -/

/-- What a sequence of registrations makes of a table, and the numbers that they yield. -/
structure Numbered (table : Table Nat) (permissions : List String) (registry : Registry)
    (numbers : List Nat) : Prop where
  /-- The unseen permissions follow the entries of the table, in the order of their first
  appearance and with consecutive numbers. -/
  entries : registry.table.entries =
    table.entries ++ (unseen table permissions).zipIdx (firstFree table)
  /-- Every entry of the table keeps its place and its number. -/
  kept : ∀ (i : Nat) (e : String × Nat), table.entries[i]? = some e →
    registry.table.entries[i]? = some e
  /-- Every registration yields the number that is in the table. -/
  yielded : List.Forall₂ (fun permission n => registry.get? permission = some n) permissions
    numbers
  /-- Registrations of the same permission yield the same number. -/
  same : ∀ (i j : Nat) (permission : String), permissions[i]? = some permission →
    permissions[j]? = some permission → numbers[i]? = numbers[j]?
  /-- A number behind those of the table occurs nowhere else. -/
  fresh : ∀ (i j : Nat) (e e' : String × Nat), registry.table.entries[i]? = some e →
    registry.table.entries[j]? = some e' → table.size ≤ i → e.2 = e'.2 → i = j

/-- The number of an unseen permission is decided by its place. -/
theorem snd_eq_of_size_le {names : List String} {i : Nat} {e : String × Nat}
    (he : (table.entries ++ names.zipIdx (firstFree table))[i]? = some e)
    (hi : table.size ≤ i) : e.2 + table.size = firstFree table + i := by
  rw [List.getElem?_append_right hi, List.getElem?_zipIdx] at he
  obtain ⟨name, -, rfl⟩ := Option.map_eq_some_iff.1 he
  rw [Table.size] at hi ⊢
  omega

/-- Only one place has a number that is behind those of the table. -/
theorem eq_of_snd_eq {names : List String} {i j : Nat} {e e' : String × Nat}
    (he : (table.entries ++ names.zipIdx (firstFree table))[i]? = some e)
    (he' : (table.entries ++ names.zipIdx (firstFree table))[j]? = some e')
    (hi : table.size ≤ i) (heq : e.2 = e'.2) : i = j := by
  have hnumber := snd_eq_of_size_le he hi
  by_cases hj : table.size ≤ j
  · have hnumber' := snd_eq_of_size_le he' hj
    omega
  · rw [List.getElem?_append_left (Nat.lt_of_not_le hj)] at he'
    have hlow : e'.2 < firstFree table :=
      lt_firstFree (List.mem_map_of_mem (List.mem_of_getElem? he'))
    omega

/-- Whatever a registry is made from, its registrations append the unseen permissions in the order
of their first appearance, with the numbers after the greatest one of the table. No entry of the
table moves or gets another number, equal permissions get equal numbers, and no new number occurs
twice. After any number of the registrations, the registry reports a change exactly when an unseen
permission was among them. -/
theorem numbered_registerAll (table : Table Nat) (permissions : List String) :
    Numbered table permissions ((ofTable table).registerAll permissions)
        ((ofTable table).numbers permissions) ∧
      ∀ k, ((ofTable table).registerAll (permissions.take k)).changed = true ↔
        ∃ permission ∈ permissions.take k, permission ∉ table.keys := by
  have hentries := (entries_registerAll table permissions).1
  have hyielded := forall₂_numbers (consistent_ofTable table) permissions
  refine ⟨⟨hentries, ?_, hyielded, ?_, ?_⟩,
    fun k => changed_registerAll_iff table (permissions.take k)⟩
  · intro i e he
    rw [hentries, List.getElem?_append_left (List.getElem?_eq_some_iff.1 he).1, he]
  · intro i j permission hi hj
    obtain ⟨n, hn, hget⟩ := Results.exists_getElem?_right hyielded hi
    obtain ⟨m, hm, hget'⟩ := Results.exists_getElem?_right hyielded hj
    rw [hn, hm, ← hget, ← hget']
  · intro i j e e' he he' hi heq
    rw [hentries] at he he'
    exact eq_of_snd_eq he he' hi heq

/-- Two entries with one number and a gap before it: new permissions go on after the greatest
number. -/
example : (ofTable (Table.ofList [("a", 4), ("b", 4), ("c", 1)])).numbers ["d", "b", "d", "e"] =
    [5, 4, 5, 6] := by decide

end SignalSchema.Registry
