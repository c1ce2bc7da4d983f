import SignalSchema.Deploy.Factory
import SignalSchema.Proofs.Deploy.Version
import SignalSchema.Proofs.Results

/-!
# The grammar of directives

Which payloads make a directive is told by a grammar that mentions no reader: `PayloadForm` says
what the payload of a key looks like, `OptionForm` what an option of a choice looks like, and
`MethodsForm` what the methods of a binding look like. The factory accepts exactly this grammar.
Of a mapping it reads the payload of one key only, the earliest factory key that the mapping has;
neither the order of the keys nor what the other keys hold makes a difference
(`ofConfig_eq_ok_iff_payloadForm`).
-/

namespace SignalSchema.Deploy

variable {entry : String} {spec config : List (String × Json)} {payload : Json} {key : FactoryKey}

/-! ### The grammar -/

/-- What a method may hold: a mapping, or one of the values that stand for an absent method. -/
inductive MethodForm : Json → Prop
  | null : MethodForm .null
  | no : MethodForm (.bool false)
  | emptyText : MethodForm (.string "")
  | emptyList : MethodForm (.array [])
  | mapping {fields : List (String × Json)} : MethodForm (.object fields)

/-- The methods of a binding are a mapping whose methods are in form. What its other keys hold does
not matter. -/
inductive MethodsForm : Json → Prop
  | mapping {spec : List (String × Json)}
      (methods : ∀ kind : MethodKind, ∀ method, Json.field? spec kind.text = some method →
        MethodForm method) : MethodsForm (.object spec)

mutual
/-- What the payload of a factory key has to look like. -/
inductive PayloadForm : FactoryKey → Json → Prop
  | constants {payload : Json} : PayloadForm .constants payload
  | defaultValue {payload : Json} : PayloadForm .defaultValue payload
  | unnamed : PayloadForm .parentAttribute .null
  | named {target : String} : PayloadForm .parentAttribute (.string target)
  | custom {spec : List (String × Json)} {origin : String} {methods : Json}
      (origin_eq : Json.field? spec "origin" = some (.string origin))
      (methods_eq : Json.field? spec "methods" = some methods)
      (methods_form : MethodsForm methods) : PayloadForm .custom (.object spec)
  | francaIDL {spec : List (String × Json)} {package service : String}
      {instanceId versionPayload methods : Json} {version : Version}
      (package_eq : Json.field? spec "package" = some (.string package))
      (service_eq : Json.field? spec "interface" = some (.string service))
      (instanceId_eq : Json.field? spec "instanceId" = some instanceId)
      (version_eq : Json.field? spec "version" = some versionPayload)
      (denotes : Version.Denotes versionPayload version)
      (methods_eq : Json.field? spec "methods" = some methods)
      (methods_form : MethodsForm methods) : PayloadForm .francaIDL (.object spec)
  | dispatcher {spec : List (String × Json)} {selector : String} {options : List Json}
      (selector_eq : Json.field? spec "selector" = some (.string selector))
      (options_eq : Json.field? spec "options" = some (.array options))
      (options_form : ∀ option ∈ options, OptionForm option) :
      PayloadForm .dispatcher (.object spec)
/-- What an option has to look like: an empty mapping, or a mapping that begins with a factory key
and a payload for it. Later keys do not matter. -/
inductive OptionForm : Json → Prop
  | empty : OptionForm (.object [])
  | first {key : FactoryKey} {value : Json} {rest : List (String × Json)}
      (value_form : PayloadForm key value) : OptionForm (.object ((key.text, value) :: rest))
end

/-- The mapping has the key with the payload, and no key that comes before it in the order of
precedence. -/
structure Decides (config : List (String × Json)) (key : FactoryKey) (payload : Json) : Prop where
  payload_eq : Json.field? config key.text = some payload
  first : ∃ before after, FactoryKey.all = before ++ key :: after ∧
    ∀ earlier ∈ before, earlier.text ∉ config.map Prod.fst

/-- Whether a value is the mapping without keys. -/
def isEmptyMapping : Json → Bool
  | .object [] => true
  | _ => false

/-- The first key of an option makes the directive. -/
def MadeByFirstKey (entry : String) (option : Json) (d : Directive) : Prop :=
  ∃ key value rest, option = .object ((FactoryKey.text key, value) :: rest) ∧
    Directive.build entry key value = .ok d

/-! ### Keys -/

/-- Every factory key is in the order of precedence. -/
theorem FactoryKey.mem_all (key : FactoryKey) : key ∈ all := by
  cases key <;> decide

/-- Every factory key has its own spelling. -/
theorem FactoryKey.ofText?_eq_some_iff {text : String} :
    ofText? text = some key ↔ text = key.text := by
  constructor
  · intro h
    have hfound := List.find?_some (p := fun k : FactoryKey => k.text == text) h
    exact (eq_of_beq hfound).symm
  · rintro rfl
    cases key <;> rfl

/-- What is found under a key is the value of the first field, if it has the key. -/
theorem field?_cons {name key : String} {value : Json} {rest : List (String × Json)} :
    Json.field? ((key, value) :: rest) name =
      if key = name then some value else Json.field? rest name := by
  rw [Json.field?, List.lookup_cons]
  by_cases h : key = name
  · rw [if_pos h, beq_iff_eq.2 h.symm]
  · rw [if_neg h, beq_eq_false_iff_ne.2 (Ne.symm h)]
    rfl

/-- No value is found under a key exactly when the key is missing. -/
theorem field?_eq_none_iff {fields : List (String × Json)} {name : String} :
    Json.field? fields name = none ↔ name ∉ fields.map Prod.fst := by
  rw [Json.field?, List.lookup_eq_none_iff, List.mem_map, not_exists]
  simp only [bne_iff_ne, ne_eq, not_and]
  exact ⟨fun h pair hmem heq => h pair hmem heq.symm, fun h pair hmem heq => h pair hmem heq.symm⟩

/-- What is found under the keys of a mapping does not depend on their order. -/
theorem field?_eq_of_perm {fields other : List (String × Json)}
    (hnodup : (fields.map Prod.fst).Nodup) (hperm : other.Perm fields) (name : String) :
    Json.field? other name = Json.field? fields name := by
  have hother : (other.map Prod.fst).Nodup := (hperm.map Prod.fst).nodup_iff.2 hnodup
  apply Option.ext
  intro value
  change (Table.mk other hother).get? name = some value ↔
    (Table.mk fields hnodup).get? name = some value
  rw [Table.get?_eq_some_iff, Table.get?_eq_some_iff]
  exact hperm.mem_iff

namespace Directive

/-- The payload that decides is that of the earliest factory key. -/
theorem factoryPayload?_eq_some_iff :
    factoryPayload? config = some (key, payload) ↔ Decides config key payload := by
  rw [factoryPayload?, List.findSome?_eq_some_iff]
  simp only [Option.map_eq_some_iff, Option.map_eq_none_iff, Prod.mk.injEq, field?_eq_none_iff]
  constructor
  · rintro ⟨before, _, after, hall, ⟨_, hpayload, rfl, rfl⟩, hbefore⟩
    exact ⟨hpayload, before, after, hall, hbefore⟩
  · rintro ⟨hpayload, before, after, hall, hbefore⟩
    exact ⟨before, key, after, hall, ⟨payload, hpayload, rfl, rfl⟩, hbefore⟩

/-- Nothing decides where no factory key is present. -/
theorem factoryPayload?_eq_none_iff :
    factoryPayload? config = none ↔ ∀ key : FactoryKey, key.text ∉ config.map Prod.fst := by
  rw [factoryPayload?, List.findSome?_eq_none_iff]
  simp only [Option.map_eq_none_iff, field?_eq_none_iff]
  exact ⟨fun h key => h key key.mem_all, fun h key _ => h key⟩

/-! ### Required keys -/

/-- A required key yields what is found under it. -/
theorem require_eq_ok_iff {name : String} {value : Json} :
    require entry spec name = .ok value ↔ Json.field? spec name = some value := by
  rw [require]
  cases Json.field? spec name <;> simp

/-- A required text is found where there is a text under the key. -/
theorem requireString_eq_ok_iff {name s : String} :
    requireString entry spec name = .ok s ↔ Json.field? spec name = some (.string s) := by
  rw [requireString, Results.bind_eq_ok_iff]
  simp only [require_eq_ok_iff]
  constructor
  · rintro ⟨value, hvalue, h⟩
    split at h
    · obtain rfl := Except.ok.inj h
      exact hvalue
    · cases h
  · exact fun h => ⟨_, h, rfl⟩

/-- The payload of a binding has to be a mapping. -/
theorem bindingFields_eq_ok_iff : bindingFields entry payload = .ok spec ↔ payload = .object spec := by
  cases payload <;> simp [bindingFields]

end Directive

/-! ### Methods -/

/-- A method is accepted when it is absent or in form. -/
theorem Methods.exists_method?_eq_ok_iff (entry : String) {kind : MethodKind} :
    (∃ method, Methods.method? entry spec kind = .ok method) ↔
      ∀ method, Json.field? spec kind.text = some method → MethodForm method := by
  unfold method?
  cases Json.field? spec kind.text with
  | none => simp
  | some value =>
    simp only [Option.some.injEq, forall_eq']
    constructor
    · intro h
      cases value with
      | null => exact .null
      | bool b => cases b with
        | false => exact .no
        | true => simp [isVoid] at h
      | number n => simp [isVoid] at h
      | string s =>
        by_cases hs : s = ""
        · rw [hs]
          exact .emptyText
        · simp [isVoid, hs] at h
      | array items => cases items with
        | nil => exact .emptyList
        | cons item rest => simp [isVoid] at h
      | object fields => exact .mapping
    · intro h
      cases h with
      | mapping => split <;> exact ⟨_, rfl⟩
      | _ => exact ⟨none, rfl⟩

/-- Methods are accepted when they are in form. -/
theorem Methods.exists_ofJson_eq_ok_iff (entry : String) :
    (∃ methods, Methods.ofJson entry payload = .ok methods) ↔ MethodsForm payload := by
  constructor
  · rintro ⟨methods, h⟩
    unfold ofJson at h
    split at h
    · obtain ⟨subscribe, hsubscribe, h⟩ := Results.bind_eq_ok_iff.1 h
      obtain ⟨read, hread, h⟩ := Results.bind_eq_ok_iff.1 h
      obtain ⟨write, hwrite, -⟩ := Results.bind_eq_ok_iff.1 h
      refine .mapping fun kind => (exists_method?_eq_ok_iff entry).1 ?_
      cases kind with
      | subscribe => exact ⟨_, hsubscribe⟩
      | read => exact ⟨_, hread⟩
      | write => exact ⟨_, hwrite⟩
    · cases h
  · rintro ⟨h⟩
    have hmethod := fun kind => (exists_method?_eq_ok_iff entry).2 (h kind)
    obtain ⟨subscribe, hsubscribe⟩ := hmethod .subscribe
    obtain ⟨read, hread⟩ := hmethod .read
    obtain ⟨write, hwrite⟩ := hmethod .write
    exact ⟨_, Results.bind_eq_ok_iff.2 ⟨_, hsubscribe, Results.bind_eq_ok_iff.2
      ⟨_, hread, Results.bind_eq_ok_iff.2 ⟨_, hwrite, rfl⟩⟩⟩⟩

/-! ### Payloads and options -/

namespace Directive

/-- References to an attribute of the parent are accepted when they are in form. -/
theorem exists_parentAttributeOf_eq_ok_iff :
    (∃ d, parentAttributeOf entry payload = .ok d) ↔ PayloadForm .parentAttribute payload := by
  constructor
  · rintro ⟨d, h⟩
    unfold parentAttributeOf at h
    split at h
    · exact .unnamed
    · exact .named
    · cases h
  · intro h
    cases h with
    | unnamed => exact ⟨_, rfl⟩
    | named => exact ⟨_, rfl⟩

/-- Bindings to a custom origin are accepted when they are in form. -/
theorem exists_customOf_eq_ok_iff :
    (∃ d, customOf entry payload = .ok d) ↔ PayloadForm .custom payload := by
  constructor
  · rintro ⟨d, h⟩
    obtain ⟨spec, hspec, h⟩ := Results.bind_eq_ok_iff.1 h
    obtain ⟨methods, hmethods, h⟩ := Results.bind_eq_ok_iff.1 h
    obtain ⟨parsed, hparsed, h⟩ := Results.bind_eq_ok_iff.1 h
    obtain ⟨origin, horigin, -⟩ := Results.bind_eq_ok_iff.1 h
    rw [bindingFields_eq_ok_iff.1 hspec]
    exact .custom (requireString_eq_ok_iff.1 horigin) (require_eq_ok_iff.1 hmethods)
      ((Methods.exists_ofJson_eq_ok_iff entry).1 ⟨parsed, hparsed⟩)
  · intro h
    cases h with
    | custom horigin hmethods hform =>
      obtain ⟨parsed, hparsed⟩ := (Methods.exists_ofJson_eq_ok_iff entry).2 hform
      exact ⟨_, Results.bind_eq_ok_iff.2 ⟨_, rfl, Results.bind_eq_ok_iff.2
        ⟨_, require_eq_ok_iff.2 hmethods, Results.bind_eq_ok_iff.2 ⟨parsed, hparsed,
          Results.bind_eq_ok_iff.2 ⟨_, requireString_eq_ok_iff.2 horigin, rfl⟩⟩⟩⟩⟩

/-- Bindings to an interface are accepted when they are in form. -/
theorem exists_interfaceOf_eq_ok_iff :
    (∃ d, interfaceOf entry payload = .ok d) ↔ PayloadForm .francaIDL payload := by
  constructor
  · rintro ⟨d, h⟩
    obtain ⟨spec, hspec, h⟩ := Results.bind_eq_ok_iff.1 h
    obtain ⟨methods, hmethods, h⟩ := Results.bind_eq_ok_iff.1 h
    obtain ⟨parsed, hparsed, h⟩ := Results.bind_eq_ok_iff.1 h
    obtain ⟨package, hpackage, h⟩ := Results.bind_eq_ok_iff.1 h
    obtain ⟨service, hservice, h⟩ := Results.bind_eq_ok_iff.1 h
    obtain ⟨instanceId, hinstanceId, h⟩ := Results.bind_eq_ok_iff.1 h
    obtain ⟨written, hwritten, h⟩ := Results.bind_eq_ok_iff.1 h
    obtain ⟨version, hversion, -⟩ := Results.bind_eq_ok_iff.1 h
    rw [bindingFields_eq_ok_iff.1 hspec]
    exact .francaIDL (requireString_eq_ok_iff.1 hpackage) (requireString_eq_ok_iff.1 hservice)
      (require_eq_ok_iff.1 hinstanceId) (require_eq_ok_iff.1 hwritten)
      (Version.ofJson_eq_ok_iff.1 hversion) (require_eq_ok_iff.1 hmethods)
      ((Methods.exists_ofJson_eq_ok_iff entry).1 ⟨parsed, hparsed⟩)
  · intro h
    cases h with
    | francaIDL hpackage hservice hinstanceId hwritten hdenotes hmethods hform =>
      obtain ⟨parsed, hparsed⟩ := (Methods.exists_ofJson_eq_ok_iff entry).2 hform
      exact ⟨_, Results.bind_eq_ok_iff.2 ⟨_, rfl, Results.bind_eq_ok_iff.2
        ⟨_, require_eq_ok_iff.2 hmethods, Results.bind_eq_ok_iff.2 ⟨parsed, hparsed,
          Results.bind_eq_ok_iff.2 ⟨_, requireString_eq_ok_iff.2 hpackage,
            Results.bind_eq_ok_iff.2 ⟨_, requireString_eq_ok_iff.2 hservice,
              Results.bind_eq_ok_iff.2 ⟨_, require_eq_ok_iff.2 hinstanceId,
                Results.bind_eq_ok_iff.2 ⟨_, require_eq_ok_iff.2 hwritten,
                  Results.bind_eq_ok_iff.2 ⟨_, Version.ofJson_eq_ok_iff.2 hdenotes,
                    rfl⟩⟩⟩⟩⟩⟩⟩⟩⟩

/-- An option in form begins with a factory key and a payload in form for it. -/
theorem optionForm_cons_iff {name : String} {value : Json} {rest : List (String × Json)} :
    OptionForm (.object ((name, value) :: rest)) ↔
      ∃ key : FactoryKey, name = key.text ∧ PayloadForm key value := by
  constructor
  · intro h
    cases h with
    | first hvalue => exact ⟨_, rfl, hvalue⟩
  · rintro ⟨key, rfl, hvalue⟩
    exact .first hvalue

/-- The options of a choice are what its list under the key `options` makes. -/
theorem optionsField_eq_ok_iff {options : List Directive} :
    optionsField entry spec = .ok options ↔
      ∃ items, Json.field? spec "options" = some (.array items) ∧
        optionList entry items = .ok options := by
  induction spec with
  | nil => simp [optionsField, Json.field?]
  | cons field rest ih =>
    obtain ⟨key, value⟩ := field
    rw [optionsField, field?_cons]
    by_cases hkey : key = "options"
    · rw [if_pos hkey, if_pos hkey]
      cases value <;> simp [optionsPayload]
    · rw [if_neg hkey, if_neg hkey]
      exact ih

mutual
/-- A payload is accepted exactly when it is in form. -/
theorem exists_build_eq_ok_iff (entry : String) :
    (key : FactoryKey) → (payload : Json) →
      ((∃ d, build entry key payload = .ok d) ↔ PayloadForm key payload)
  | .constants, payload => iff_of_true ⟨_, by rw [build]⟩ .constants
  | .defaultValue, payload => iff_of_true ⟨_, by rw [build]⟩ .defaultValue
  | .francaIDL, payload => by
    simp only [build]
    exact exists_interfaceOf_eq_ok_iff
  | .parentAttribute, payload => by
    simp only [build]
    exact exists_parentAttributeOf_eq_ok_iff
  | .custom, payload => by
    simp only [build]
    exact exists_customOf_eq_ok_iff
  | .dispatcher, .object spec => by
    have hoptions := exists_optionsField_eq_ok_iff entry spec
    constructor
    · rintro ⟨d, h⟩
      rw [build] at h
      obtain ⟨selector, hselector, h⟩ := Results.bind_eq_ok_iff.1 h
      obtain ⟨options, hmade, -⟩ := Results.bind_eq_ok_iff.1 h
      obtain ⟨items, hitems, hform⟩ := hoptions.1 ⟨options, hmade⟩
      exact .dispatcher (requireString_eq_ok_iff.1 hselector) hitems hform
    · intro h
      cases h with
      | @dispatcher _ selector _ hselector hitems hform =>
        obtain ⟨options, hmade⟩ := hoptions.2 ⟨_, hitems, hform⟩
        refine ⟨.dispatcher entry selector options, ?_⟩
        rw [build]
        exact Results.bind_eq_ok_iff.2 ⟨_, requireString_eq_ok_iff.2 hselector,
          Results.bind_eq_ok_iff.2 ⟨options, hmade, rfl⟩⟩
  | .dispatcher, .null | .dispatcher, .bool _ | .dispatcher, .number _ | .dispatcher, .string _
  | .dispatcher, .array _ => iff_of_false (by simp [build]) (by rintro ⟨⟩)
/-- The options of a choice are accepted when they are a list of options in form. -/
theorem exists_optionsField_eq_ok_iff (entry : String) :
    (spec : List (String × Json)) → ((∃ ds, optionsField entry spec = .ok ds) ↔
      ∃ items, Json.field? spec "options" = some (.array items) ∧
        ∀ item ∈ items, OptionForm item)
  | [] => by simp [optionsField, Json.field?]
  | (key, value) :: rest => by
    have hvalue := exists_optionsPayload_eq_ok_iff entry value
    have hrest := exists_optionsField_eq_ok_iff entry rest
    simp only [optionsField, field?_cons]
    by_cases hkey : key = "options"
    · simpa only [if_pos hkey, Option.some.injEq] using hvalue
    · simpa only [if_neg hkey] using hrest
/-- The payload of the options is accepted when it is a list of options in form. -/
theorem exists_optionsPayload_eq_ok_iff (entry : String) :
    (value : Json) → ((∃ ds, optionsPayload entry value = .ok ds) ↔
      ∃ items, value = .array items ∧ ∀ item ∈ items, OptionForm item)
  | .array items => by
    have hitems := exists_optionList_eq_ok_iff entry items
    simpa [optionsPayload] using hitems
  | .null | .bool _ | .number _ | .string _ | .object _ => by simp [optionsPayload]
/-- A list of options is accepted when all of them are in form. -/
theorem exists_optionList_eq_ok_iff (entry : String) :
    (items : List Json) → ((∃ ds, optionList entry items = .ok ds) ↔
      ∀ item ∈ items, OptionForm item)
  | [] => iff_of_true ⟨[], by rw [optionList]⟩ (by simp)
  | item :: rest => by
    rw [List.forall_mem_cons, ← exists_option?_eq_ok_iff entry item,
      ← exists_optionList_eq_ok_iff entry rest]
    simp only [optionList]
    constructor
    · rintro ⟨ds, h⟩
      obtain ⟨first, hfirst, h⟩ := Results.bind_eq_ok_iff.1 h
      obtain ⟨others, hothers, -⟩ := Results.bind_eq_ok_iff.1 h
      exact ⟨⟨first, hfirst⟩, others, hothers⟩
    · rintro ⟨⟨first, hfirst⟩, others, hothers⟩
      exact ⟨_, Results.bind_eq_ok_iff.2 ⟨first, hfirst,
        Results.bind_eq_ok_iff.2 ⟨others, hothers, rfl⟩⟩⟩
/-- An option is accepted when it is in form. -/
theorem exists_option?_eq_ok_iff (entry : String) :
    (item : Json) → ((∃ made, option? entry item = .ok made) ↔ OptionForm item)
  | .object fields => by
    have hfields := exists_firstField?_eq_ok_iff entry fields
    simpa only [option?] using hfields
  | .null | .bool _ | .number _ | .string _ | .array _ =>
    iff_of_false (by simp [option?]) (by rintro ⟨⟩)
/-- The fields of an option are accepted when the option is in form. -/
theorem exists_firstField?_eq_ok_iff (entry : String) :
    (fields : List (String × Json)) →
      ((∃ made, firstField? entry fields = .ok made) ↔ OptionForm (.object fields))
  | [] => iff_of_true ⟨none, by rw [firstField?]⟩ .empty
  | (name, value) :: rest => by
    have hbuild := fun key => exists_build_eq_ok_iff entry key value
    rw [optionForm_cons_iff]
    simp only [firstField?]
    constructor
    · rintro ⟨made, h⟩
      split at h
      next key hkey =>
        obtain ⟨d, hd, -⟩ := Results.map_eq_ok_iff.1 h
        exact ⟨key, FactoryKey.ofText?_eq_some_iff.1 hkey, (hbuild key).1 ⟨d, hd⟩⟩
      next => cases h
    · rintro ⟨key, hname, hform⟩
      obtain ⟨d, hd⟩ := (hbuild key).2 hform
      rw [FactoryKey.ofText?_eq_some_iff.2 hname]
      exact ⟨some d, Results.map_eq_ok_iff.2 ⟨d, hd, rfl⟩⟩
end

/-! ### Options that are skipped -/

/-- An option that is the empty mapping makes nothing, any other one what its first key makes. -/
theorem option?_eq_ok_iff {item : Json} {made : Option Directive} :
    option? entry item = .ok made ↔
      item = .object [] ∧ made = none ∨ ∃ d, made = some d ∧ MadeByFirstKey entry item d := by
  constructor
  · intro h
    match item, h with
    | .object [], h =>
      rw [option?, firstField?] at h
      exact .inl ⟨rfl, (Except.ok.inj h).symm⟩
    | .object ((name, value) :: rest), h =>
      rw [option?, firstField?] at h
      split at h
      next key hkey =>
        obtain ⟨d, hd, hmade⟩ := Results.map_eq_ok_iff.1 h
        rw [FactoryKey.ofText?_eq_some_iff.1 hkey]
        exact .inr ⟨d, hmade.symm, key, value, rest, rfl, hd⟩
      next => cases h
  · rintro (⟨rfl, rfl⟩ | ⟨d, rfl, key, value, rest, rfl, hd⟩)
    · rw [option?, firstField?]
    · rw [option?, firstField?, FactoryKey.ofText?_eq_some_iff.2 rfl]
      exact Results.map_eq_ok_iff.2 ⟨d, hd, rfl⟩

/-- The options of a choice are made, in their order, by those in the list that are not empty. -/
theorem forall₂_madeByFirstKey {items : List Json} {options : List Directive}
    (h : optionList entry items = .ok options) :
    List.Forall₂ (MadeByFirstKey entry) (items.filter (!isEmptyMapping ·)) options := by
  induction items generalizing options with
  | nil =>
    rw [optionList] at h
    rw [← Except.ok.inj h]
    exact .nil
  | cons item rest ih =>
    rw [optionList] at h
    obtain ⟨first, hfirst, h⟩ := Results.bind_eq_ok_iff.1 h
    obtain ⟨others, hothers, h⟩ := Results.bind_eq_ok_iff.1 h
    rw [← Except.ok.inj h]
    rcases option?_eq_ok_iff.1 hfirst with ⟨rfl, rfl⟩ | ⟨d, rfl, hmade⟩
    · exact ih hothers
    · have hfull : isEmptyMapping item = false := by
        obtain ⟨key, value, fields, rfl, -⟩ := hmade
        rfl
      rw [List.filter_cons_of_pos (by rw [hfull]; rfl)]
      exact .cons hmade (ih hothers)

/-- A choice has the selector that is given and what the options that are not empty make. -/
theorem exists_options_of_build_dispatcher {d : Directive} {items : List Json}
    (h : build entry .dispatcher (.object spec) = .ok d)
    (hitems : Json.field? spec "options" = some (.array items)) :
    ∃ selector options, Json.field? spec "selector" = some (.string selector) ∧
      d = .dispatcher entry selector options ∧
      List.Forall₂ (MadeByFirstKey entry) (items.filter (!isEmptyMapping ·)) options := by
  rw [build] at h
  obtain ⟨selector, hselector, h⟩ := Results.bind_eq_ok_iff.1 h
  obtain ⟨options, hoptions, h⟩ := Results.bind_eq_ok_iff.1 h
  obtain ⟨found, hfound, hmade⟩ := optionsField_eq_ok_iff.1 hoptions
  rw [hitems, Option.some.injEq, Json.array.injEq] at hfound
  subst hfound
  exact ⟨selector, options, requireString_eq_ok_iff.1 hselector, (Except.ok.inj h).symm,
    forall₂_madeByFirstKey hmade⟩

/-! ### Configurations -/

/-- Where a key decides, the directive is what its payload makes. -/
theorem ofConfig_of_decides (h : Decides config key payload) :
    ofConfig entry config = (build entry key payload).map some := by
  rw [ofConfig, factoryPayload?_eq_some_iff.2 h]

/-- Without a factory key there is no directive, and with one there is a directive or a fault. -/
theorem ofConfig_eq_ok_none_iff :
    ofConfig entry config = .ok none ↔ ∀ key : FactoryKey, key.text ∉ config.map Prod.fst := by
  rw [← factoryPayload?_eq_none_iff, ofConfig]
  cases factoryPayload? config with
  | none => simp
  | some found => simp [Results.map_eq_ok_iff]

/-- The factory accepts exactly its grammar. No directive is made exactly where no factory key is
present. Where one is, the earliest of them decides: there is a directive exactly when its payload
is in form, every mapping in which it decides yields the same, and of the options of a choice the
empty ones are skipped. The order of the keys never matters. -/
theorem ofConfig_eq_ok_iff_payloadForm (entry : String) (config : List (String × Json)) :
    (ofConfig entry config = .ok none ↔
      ∀ key : FactoryKey, key.text ∉ config.map Prod.fst) ∧
    ((∃ key : FactoryKey, key.text ∈ config.map Prod.fst) →
      ∃ key payload, Decides config key payload) ∧
    (∀ key payload, Decides config key payload →
      ((∃ d, ofConfig entry config = .ok (some d)) ↔ PayloadForm key payload) ∧
      (∀ other, Decides other key payload → ofConfig entry other = ofConfig entry config) ∧
      ∀ spec items d, key = .dispatcher → payload = .object spec →
        Json.field? spec "options" = some (.array items) →
        ofConfig entry config = .ok (some d) →
        ∃ selector options, Json.field? spec "selector" = some (.string selector) ∧
          d = .dispatcher entry selector options ∧
          List.Forall₂ (MadeByFirstKey entry) (items.filter (!isEmptyMapping ·)) options) ∧
    ∀ other, (config.map Prod.fst).Nodup → other.Perm config →
      ofConfig entry other = ofConfig entry config := by
  refine ⟨ofConfig_eq_ok_none_iff, ?_, ?_, ?_⟩
  · rintro ⟨present, hpresent⟩
    cases hfound : factoryPayload? config with
    | none => exact absurd hpresent (factoryPayload?_eq_none_iff.1 hfound present)
    | some found => exact ⟨found.1, found.2, factoryPayload?_eq_some_iff.1 hfound⟩
  · intro key payload hdecides
    have hmade : ∀ d, ofConfig entry config = .ok (some d) ↔ build entry key payload = .ok d := by
      intro d
      rw [ofConfig_of_decides hdecides, Results.map_eq_ok_iff]
      simp
    refine ⟨?_, ?_, ?_⟩
    · simp only [hmade]
      exact exists_build_eq_ok_iff entry key payload
    · intro other hother
      rw [ofConfig_of_decides hother, ofConfig_of_decides hdecides]
    · rintro spec items d rfl rfl hitems hd
      exact exists_options_of_build_dispatcher ((hmade d).1 hd) hitems
  · intro other hnodup hperm
    simp only [ofConfig, factoryPayload?, field?_eq_of_perm hnodup hperm]

/-- The payload of a choice between an option that is empty and one with two keys. -/
def choiceSpec : List (String × Json) :=
  [("selector", .string "variant"),
    ("options", .array [.object [], .object [("_constants", .null), ("Speed", .null)]])]

/-- A choice behind the payload of a custom origin that is not in form. -/
def choiceConfig : List (String × Json) :=
  [("_custom", .bool true), ("_dispatcher", .object choiceSpec)]

/-- The choice decides although it is written last. Its empty option is skipped, and the keys may
be written the other way around. -/
theorem ofConfig_choiceConfig :
    Decides choiceConfig .dispatcher (.object choiceSpec) ∧
    (∃ selector options,
      ofConfig "A_B" choiceConfig = .ok (some (.dispatcher "A_B" selector options)) ∧
      List.Forall₂ (MadeByFirstKey "A_B") [.object [("_constants", .null), ("Speed", .null)]]
        options) ∧
    ofConfig "A_B" choiceConfig.reverse = ofConfig "A_B" choiceConfig := by
  obtain ⟨-, -, hdecided, hperm⟩ := ofConfig_eq_ok_iff_payloadForm "A_B" choiceConfig
  have hchoice : Decides choiceConfig .dispatcher (.object choiceSpec) :=
    ⟨rfl, [.constants, .defaultValue], [.francaIDL, .parentAttribute, .custom], rfl, by decide⟩
  obtain ⟨hform, -, hskips⟩ := hdecided _ _ hchoice
  have hoption : OptionForm (.object [("_constants", .null), ("Speed", .null)]) :=
    @OptionForm.first .constants _ _ .constants
  obtain ⟨d, hd⟩ := hform.2 (.dispatcher rfl rfl (by simpa using ⟨.empty, hoption⟩))
  obtain ⟨selector, options, -, rfl, hoptions⟩ := hskips _ _ d rfl rfl rfl hd
  exact ⟨hchoice, ⟨selector, options, hd, hoptions⟩,
    hperm _ (by decide) (List.reverse_perm choiceConfig)⟩

end Directive

end SignalSchema.Deploy
