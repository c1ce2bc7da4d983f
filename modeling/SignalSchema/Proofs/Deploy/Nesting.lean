import SignalSchema.Deploy.Factory
import SignalSchema.Proofs.Results

/-!
# Nested directives

A collection is made of directives that may be collections again. What the factory makes of a
mapping is built under one name throughout, and it contains choices at any depth but no list
(`madeUnder_of_ofConfig`): lists come only from the items of a layer.
-/

namespace SignalSchema.Deploy.Directive

variable {d : Directive} {entry name : String} {payload : Json}

/-- The directives so many steps below a directive, where a step leads from a collection to one
of its entries. -/
def atDepth : Nat → Directive → List Directive
  | 0, d => [d]
  | depth + 1, d => (d.entries?.getD []).flatMap (atDepth depth)

/-- Whether the directive is a list. -/
def isList : Directive → Bool
  | list .. => true
  | _ => false

/-- The directive and all that it is made of have the name, and none of them is a list. -/
def MadeUnder (name : String) (d : Directive) : Prop :=
  ∀ depth, ∀ b ∈ d.atDepth depth, b.name = name ∧ b.isList = false

/-- The directive and all that it is made of have the name, and there is no list below it. -/
structure Nested (name : String) (d : Directive) : Prop where
  name_eq : ∀ depth, ∀ b ∈ d.atDepth depth, b.name = name
  isList_eq : ∀ depth, ∀ b ∈ d.atDepth (depth + 1), b.isList = false

/-- One step below a directive there are its entries. -/
theorem atDepth_one (d : Directive) : d.atDepth 1 = d.entries?.getD [] := by
  simp [atDepth]

/-- Below what is no collection, there is nothing. -/
theorem atDepth_succ_of_not_isCollection (h : d.isCollection = false) (depth : Nat) :
    d.atDepth (depth + 1) = [] := by
  rw [isCollection, Option.isSome_eq_false_iff, Option.isNone_iff_eq_none] at h
  rw [atDepth, h]
  rfl

/-- What lies below a directive lies at some depth of one of its entries. -/
theorem mem_atDepth_succ_iff {depth : Nat} {b : Directive} :
    b ∈ d.atDepth (depth + 1) ↔ ∃ e ∈ d.entries?.getD [], b ∈ e.atDepth depth := by
  rw [atDepth, List.mem_flatMap]

/-- A directive that is no collection is made under its name. -/
theorem madeUnder_of_not_isCollection (h : d.isCollection = false) : d.MadeUnder d.name := by
  intro depth b hb
  cases depth with
  | zero =>
    rw [List.mem_singleton.1 hb]
    refine ⟨rfl, ?_⟩
    cases d with
    | list => cases h
    | _ => rfl
  | succ depth =>
    rw [atDepth_succ_of_not_isCollection h] at hb
    cases hb

/-- A choice between options that are made under a name is made under it. -/
theorem madeUnder_dispatcher {selector : String} {options : List Directive}
    (h : ∀ option ∈ options, option.MadeUnder name) :
    (dispatcher name selector options).MadeUnder name := by
  intro depth b hb
  cases depth with
  | zero =>
    obtain rfl := List.mem_singleton.1 hb
    exact ⟨rfl, rfl⟩
  | succ depth =>
    obtain ⟨option, hoption, hb⟩ := mem_atDepth_succ_iff.1 hb
    exact h option hoption depth b hb

/-- What is made under a name is nested under it. -/
theorem MadeUnder.nested (h : d.MadeUnder name) : d.Nested name :=
  ⟨fun depth b hb => (h depth b hb).1, fun depth b hb => (h (depth + 1) b hb).2⟩

/-- A list of directives that are made under its name is nested under it. -/
theorem nested_list {ds : List Directive} (h : ∀ d ∈ ds, d.MadeUnder name) :
    (list name ds).Nested name := by
  constructor
  · intro depth b hb
    cases depth with
    | zero =>
      rw [List.mem_singleton.1 hb]
      rfl
    | succ depth =>
      obtain ⟨d, hd, hb⟩ := mem_atDepth_succ_iff.1 hb
      exact (h d hd depth b hb).1
  · intro depth b hb
    obtain ⟨d, hd, hb⟩ := mem_atDepth_succ_iff.1 hb
    exact (h d hd depth b hb).2

/-! ### The factory -/

/-- A reference to an attribute of the parent is no collection. -/
theorem madeUnder_of_parentAttributeOf (h : parentAttributeOf entry payload = .ok d) :
    d.MadeUnder entry := by
  unfold parentAttributeOf at h
  split at h
  · rw [← Except.ok.inj h]
    exact madeUnder_of_not_isCollection rfl
  · rw [← Except.ok.inj h]
    exact madeUnder_of_not_isCollection rfl
  · cases h

/-- A binding to an interface is no collection. -/
theorem madeUnder_of_interfaceOf (h : interfaceOf entry payload = .ok d) : d.MadeUnder entry := by
  obtain ⟨spec, -, h⟩ := Results.bind_eq_ok_iff.1 h
  obtain ⟨methodsPayload, -, h⟩ := Results.bind_eq_ok_iff.1 h
  obtain ⟨methods, -, h⟩ := Results.bind_eq_ok_iff.1 h
  obtain ⟨package, -, h⟩ := Results.bind_eq_ok_iff.1 h
  obtain ⟨service, -, h⟩ := Results.bind_eq_ok_iff.1 h
  obtain ⟨instanceId, -, h⟩ := Results.bind_eq_ok_iff.1 h
  obtain ⟨versionPayload, -, h⟩ := Results.bind_eq_ok_iff.1 h
  obtain ⟨version, -, h⟩ := Results.bind_eq_ok_iff.1 h
  rw [← Except.ok.inj h]
  exact madeUnder_of_not_isCollection rfl

/-- A binding to a custom origin is no collection. -/
theorem madeUnder_of_customOf (h : customOf entry payload = .ok d) : d.MadeUnder entry := by
  obtain ⟨spec, -, h⟩ := Results.bind_eq_ok_iff.1 h
  obtain ⟨methodsPayload, -, h⟩ := Results.bind_eq_ok_iff.1 h
  obtain ⟨methods, -, h⟩ := Results.bind_eq_ok_iff.1 h
  obtain ⟨origin, -, h⟩ := Results.bind_eq_ok_iff.1 h
  rw [← Except.ok.inj h]
  exact madeUnder_of_not_isCollection rfl

mutual
/-- What the payload of a key makes is made under the name of the entry. -/
theorem madeUnder_of_build (entry : String) :
    (key : FactoryKey) → (payload : Json) → {d : Directive} →
      build entry key payload = .ok d → d.MadeUnder entry
  | .constants, payload, d, h | .defaultValue, payload, d, h => by
    rw [build] at h
    rw [← Except.ok.inj h]
    exact madeUnder_of_not_isCollection rfl
  | .francaIDL, payload, d, h => madeUnder_of_interfaceOf (by rwa [build] at h)
  | .parentAttribute, payload, d, h => madeUnder_of_parentAttributeOf (by rwa [build] at h)
  | .custom, payload, d, h => madeUnder_of_customOf (by rwa [build] at h)
  | .dispatcher, .object spec, d, h => by
    rw [build] at h
    obtain ⟨selector, -, h⟩ := Results.bind_eq_ok_iff.1 h
    obtain ⟨options, hoptions, h⟩ := Results.bind_eq_ok_iff.1 h
    rw [← Except.ok.inj h]
    exact madeUnder_dispatcher (madeUnder_of_optionsField entry spec hoptions)
  | .dispatcher, .null, d, h | .dispatcher, .bool _, d, h | .dispatcher, .number _, d, h
  | .dispatcher, .string _, d, h | .dispatcher, .array _, d, h => by simp [build] at h
/-- The options under their key are made under the name of the entry. -/
theorem madeUnder_of_optionsField (entry : String) :
    (spec : List (String × Json)) → {ds : List Directive} →
      optionsField entry spec = .ok ds → ∀ d ∈ ds, d.MadeUnder entry
  | [], ds, h => by
    rw [optionsField] at h
    cases h
  | (key, value) :: rest, ds, h => by
    rw [optionsField] at h
    split at h
    · exact madeUnder_of_optionsPayload entry value h
    · exact madeUnder_of_optionsField entry rest h
/-- The options of a payload are made under the name of the entry. -/
theorem madeUnder_of_optionsPayload (entry : String) :
    (payload : Json) → {ds : List Directive} →
      optionsPayload entry payload = .ok ds → ∀ d ∈ ds, d.MadeUnder entry
  | .array items, ds, h => by
    rw [optionsPayload] at h
    exact madeUnder_of_optionList entry items h
  | .null, ds, h | .bool _, ds, h | .number _, ds, h | .string _, ds, h | .object _, ds, h => by
    simp [optionsPayload] at h
/-- The options of a list are made under the name of the entry. -/
theorem madeUnder_of_optionList (entry : String) :
    (items : List Json) → {ds : List Directive} →
      optionList entry items = .ok ds → ∀ d ∈ ds, d.MadeUnder entry
  | [], ds, h => by
    rw [optionList] at h
    rw [← Except.ok.inj h]
    exact nofun
  | item :: rest, ds, h => by
    rw [optionList] at h
    obtain ⟨first, hfirst, h⟩ := Results.bind_eq_ok_iff.1 h
    obtain ⟨others, hothers, h⟩ := Results.bind_eq_ok_iff.1 h
    rw [← Except.ok.inj h]
    intro d hd
    rcases List.mem_append.1 hd with hd | hd
    · rw [Option.mem_toList] at hd
      exact madeUnder_of_option? entry item hfirst d hd
    · exact madeUnder_of_optionList entry rest hothers d hd
/-- An option is made under the name of the entry. -/
theorem madeUnder_of_option? (entry : String) :
    (item : Json) → {d? : Option Directive} →
      option? entry item = .ok d? → ∀ d ∈ d?, d.MadeUnder entry
  | .object fields, d?, h => by
    rw [option?] at h
    exact madeUnder_of_firstField? entry fields h
  | .null, d?, h | .bool _, d?, h | .number _, d?, h | .string _, d?, h | .array _, d?, h => by
    simp [option?] at h
/-- What the first key of an option makes is made under the name of the entry. -/
theorem madeUnder_of_firstField? (entry : String) :
    (fields : List (String × Json)) → {d? : Option Directive} →
      firstField? entry fields = .ok d? → ∀ d ∈ d?, d.MadeUnder entry
  | [], d?, h => by
    rw [firstField?] at h
    rw [← Except.ok.inj h]
    exact nofun
  | (key, value) :: rest, d?, h => by
    rw [firstField?] at h
    split at h
    · obtain ⟨d, hd, rfl⟩ := Results.map_eq_ok_iff.1 h
      intro b hb
      rw [← Option.some.inj hb]
      exact madeUnder_of_build entry _ value hd
    · cases h
end

/-- The directive of a mapping is made under the name of the entry. -/
theorem madeUnder_of_ofConfig {config : List (String × Json)}
    (h : ofConfig entry config = .ok (some d)) : d.MadeUnder entry := by
  unfold ofConfig at h
  split at h
  · obtain ⟨d', hd, heq⟩ := Results.map_eq_ok_iff.1 h
    rw [← Option.some.inj heq]
    exact madeUnder_of_build entry _ _ hd
  · cases h

end SignalSchema.Deploy.Directive
