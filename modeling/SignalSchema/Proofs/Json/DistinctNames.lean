import SignalSchema.Json.Reader
import SignalSchema.Sdl.Lowering
import SignalSchema.Table

/-!
# Distinct field names

A text may give a key of an object several values. A key that is met again keeps its place and takes
the new value, as in a table (`objectOf_eq`). So all objects in a value that was read have distinct
field names, however deep they lie, be it the value of a JSON text (`distinct_of_parse?`) or that of
an argument in a schema text (`distinct_lower`).
-/

namespace SignalSchema.Json

mutual
/-- All objects in a value have distinct field names. -/
def Distinct : Json → Prop
  | .array items => ItemsDistinct items
  | .object fields => (fields.map Prod.fst).Nodup ∧ FieldsDistinct fields
  | _ => True
/-- All objects in the items have distinct field names. -/
def ItemsDistinct : List Json → Prop
  | [] => True
  | v :: rest => v.Distinct ∧ ItemsDistinct rest
/-- All objects in the values of the fields have distinct field names. -/
def FieldsDistinct : List (String × Json) → Prop
  | [] => True
  | (_, v) :: rest => v.Distinct ∧ FieldsDistinct rest
end

/-- Items have distinct field names if each of them does. -/
theorem itemsDistinct_iff {items : List Json} :
    ItemsDistinct items ↔ ∀ v ∈ items, v.Distinct := by
  induction items with
  | nil => simp [ItemsDistinct]
  | cons v rest ih => rw [ItemsDistinct, ih, List.forall_mem_cons]

/-- The values of fields have distinct field names if each of them does. -/
theorem fieldsDistinct_iff {fields : List (String × Json)} :
    FieldsDistinct fields ↔ ∀ e ∈ fields, e.2.Distinct := by
  induction fields with
  | nil => simp [FieldsDistinct]
  | cons e rest ih => rw [FieldsDistinct, ih, List.forall_mem_cons]

@[simp] theorem distinct_array_iff {items : List Json} :
    (Json.array items).Distinct ↔ ∀ v ∈ items, v.Distinct := by
  rw [Distinct, itemsDistinct_iff]

@[simp] theorem distinct_object_iff {fields : List (String × Json)} :
    (Json.object fields).Distinct ↔
      (fields.map Prod.fst).Nodup ∧ ∀ e ∈ fields, e.2.Distinct := by
  rw [Distinct, fieldsDistinct_iff]

/-! ### Objects of entries -/

/-- Giving a key its value is entering it in a table. -/
theorem putField_eq_put (key : String) (v : Json) (fields : List (String × Json)) :
    putField key v fields = Table.put key v fields := by
  induction fields with
  | nil => rfl
  | cons e rest ih => rw [putField, Table.put, ih]

/-- The fields of an object are entered one after the other. -/
theorem objectOf_eq (entries : List (String × Json)) :
    objectOf entries = .object (Table.ofList entries).entries := by
  suffices ∀ t : Table Json, entries.foldl (fun fields e => putField e.1 e.2 fields) t.entries =
      (entries.foldl (fun t e => t.insert e.1 e.2) t).entries from
    congrArg Json.object (this Table.empty)
  induction entries with
  | nil => exact fun _ => rfl
  | cons e rest ih =>
    intro t
    rw [List.foldl_cons, List.foldl_cons, putField_eq_put, ← ih, Table.entries_insert]

/-- An object of entries has distinct field names if their values do. -/
theorem distinct_objectOf {entries : List (String × Json)} (h : ∀ e ∈ entries, e.2.Distinct) :
    (objectOf entries).Distinct := by
  rw [objectOf_eq, distinct_object_iff]
  exact ⟨(Table.ofList entries).nodup, fun e he => h e (Table.mem_of_mem_entries_ofList he)⟩

/-! ### Values that are read -/

open RawJson

mutual
/-- A value that is read has distinct field names. -/
theorem distinct_of_valueAt? {depth : Nat} {raw : RawJson} {v : Json}
    (h : raw.valueAt? depth = some v) : v.Distinct := by
  cases raw with
  | null | bool b =>
    obtain rfl := Option.some.inj h
    trivial
  | number n =>
    obtain ⟨_, -, rfl⟩ := Option.map_eq_some_iff.1 h
    trivial
  | string units =>
    obtain ⟨_, -, rfl⟩ := Option.map_eq_some_iff.1 h
    trivial
  | array items =>
    rw [valueAt?] at h
    split at h
    · cases h
    · obtain ⟨values, hvalues, rfl⟩ := Option.map_eq_some_iff.1 h
      exact distinct_array_iff.2 (distinct_of_itemsAt? hvalues)
  | object fields =>
    rw [valueAt?] at h
    split at h
    · cases h
    · obtain ⟨entries, hentries, rfl⟩ := Option.map_eq_some_iff.1 h
      exact distinct_objectOf (distinct_of_fieldsAt? hentries)
/-- Items that are read have distinct field names. -/
theorem distinct_of_itemsAt? {depth : Nat} {items : List RawJson} {values : List Json}
    (h : itemsAt? depth items = some values) : ∀ v ∈ values, v.Distinct := by
  cases items with
  | nil =>
    obtain rfl := Option.some.inj h
    exact List.forall_mem_nil _
  | cons item rest =>
    obtain ⟨v, hv, h⟩ := Option.bind_eq_some_iff.1 h
    obtain ⟨others, hothers, h⟩ := Option.bind_eq_some_iff.1 h
    obtain rfl := Option.some.inj h
    exact List.forall_mem_cons.2 ⟨distinct_of_valueAt? hv, distinct_of_itemsAt? hothers⟩
/-- The values of fields that are read have distinct field names. -/
theorem distinct_of_fieldsAt? {depth : Nat} {fields : List (List Nat × RawJson)}
    {entries : List (String × Json)} (h : fieldsAt? depth fields = some entries) :
    ∀ e ∈ entries, e.2.Distinct := by
  cases fields with
  | nil =>
    obtain rfl := Option.some.inj h
    exact List.forall_mem_nil _
  | cons field rest =>
    obtain ⟨key, raw⟩ := field
    obtain ⟨name, -, h⟩ := Option.bind_eq_some_iff.1 h
    obtain ⟨v, hv, h⟩ := Option.bind_eq_some_iff.1 h
    obtain ⟨others, hothers, h⟩ := Option.bind_eq_some_iff.1 h
    obtain rfl := Option.some.inj h
    exact List.forall_mem_cons.2 ⟨distinct_of_valueAt? hv, distinct_of_fieldsAt? hothers⟩
end

/-- All objects in the value of a text have distinct field names. -/
theorem distinct_of_parse? {s : String} {v : Json} (h : Json.parse? s = some v) : v.Distinct := by
  obtain ⟨raw, -, hvalue⟩ := Option.bind_eq_some_iff.1 h
  exact distinct_of_valueAt? hvalue

/-- A repeated key keeps its place and takes its last value, at the outside and further in. -/
example : Json.parse? r#"{"a": 1, "b": {"c": 1, "c": 2}, "a": 3}"# = some (.object
    [("a", .number (.int 3)), ("b", .object [("c", .number (.int 2))])]) := by cbv

/-! ### Values of a schema text -/

open Sdl (Value)

/-- A number is no object, and neither is what stands for one that JSON cannot express. -/
theorem distinct_ofDouble (x : Double) : (Value.ofDouble x).Distinct := by
  unfold Value.ofDouble
  split <;> trivial

mutual
/-- The value of an argument has distinct field names. -/
theorem distinct_lower (value : Value) : value.lower.Distinct := by
  cases value with
  | null | bool b | string s | enum name => trivial
  | int text =>
    rw [Value.lower]
    split
    · trivial
    · exact distinct_ofDouble _
  | float text => exact distinct_ofDouble _
  | list items => exact distinct_array_iff.2 (distinct_lowerItems items)
  | object fields => exact distinct_objectOf (distinct_lowerFields fields)
/-- The values of items have distinct field names. -/
theorem distinct_lowerItems (items : List Value) :
    ∀ v ∈ Sdl.lowerItems items, v.Distinct := by
  cases items with
  | nil => exact List.forall_mem_nil _
  | cons item rest =>
    exact List.forall_mem_cons.2 ⟨distinct_lower item, distinct_lowerItems rest⟩
/-- The values of fields have distinct field names. -/
theorem distinct_lowerFields (fields : List (String × Value)) :
    ∀ e ∈ Sdl.lowerFields fields, e.2.Distinct := by
  cases fields with
  | nil => exact List.forall_mem_nil _
  | cons field rest =>
    exact List.forall_mem_cons.2 ⟨distinct_lower field.2, distinct_lowerFields rest⟩
end

end SignalSchema.Json
