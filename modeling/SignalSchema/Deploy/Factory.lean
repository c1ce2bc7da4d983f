import SignalSchema.Deploy.Directive
import SignalSchema.Deploy.Keys

/-!
# Directives from mappings

A mapping is turned into a directive by the first of the factory keys, in their fixed order,
that it has. What its other keys hold does not matter.
-/

namespace SignalSchema.Deploy

/-- The keys that make a directive, in the order in which they are tried. -/
inductive FactoryKey where
  | constants
  | defaultValue
  | dispatcher
  | francaIDL
  | parentAttribute
  | custom
  deriving DecidableEq, Repr

namespace FactoryKey

/-- All factory keys in order of precedence. -/
def all : List FactoryKey :=
  [constants, defaultValue, dispatcher, francaIDL, parentAttribute, custom]

/-- How a key is written in a layer. -/
def text : FactoryKey → String
  | constants => Key.constants
  | defaultValue => Key.defaultValue
  | dispatcher => Key.dispatcher
  | francaIDL => Key.francaIDL
  | parentAttribute => Key.parentAttribute
  | custom => Key.custom

/-- The factory key with a spelling. -/
def ofText? (key : String) : Option FactoryKey :=
  all.find? (·.text == key)

end FactoryKey

namespace Directive

/-- The value under a key that has to be present. -/
def require (entry : String) (spec : List (String × Json)) (key : String) : Except Fault Json :=
  match Json.field? spec key with
  | some value => .ok value
  | none => .error (.missingKey entry key)

/-- The text under a key that has to be present. -/
def requireString (entry : String) (spec : List (String × Json)) (key : String) :
    Except Fault String := do
  match ← require entry spec key with
  | .string s => .ok s
  | value => .error (.malformed entry (.stringExpected key value))

/-- Whether a flag is set by a value. -/
def isTruthy : Json → Bool
  | .null => false
  | .bool b => b
  | .number n => !n.isZero
  | .string s => !s.isEmpty
  | .array items => !items.isEmpty
  | .object fields => !fields.isEmpty

/-- Whether a flag is present and set. -/
def flag (spec : List (String × Json)) (key : String) : Bool :=
  (Json.field? spec key).any isTruthy

/-- A string as itself, any other value by its text. -/
def scalarText : Json → String
  | .string s => s
  | value => value.compact

/-- A mapping, or the fault that a binding's payload is none. -/
def bindingFields (entry : String) : Json → Except Fault (List (String × Json))
  | .object spec => .ok spec
  | payload => .error (.malformed entry (.bindingType payload))

/-- A reference to an attribute of the parent, which need not be named. -/
def parentAttributeOf (entry : String) : Json → Except Fault Directive
  | .null => .ok (parentAttribute entry none)
  | .string s => .ok (parentAttribute entry (some s))
  | _ => .error (.malformed entry .parentAttributeType)

/-- A binding to an interface. -/
def interfaceOf (entry : String) (payload : Json) : Except Fault Directive := do
  let spec ← bindingFields entry payload
  let methods ← Methods.ofJson entry (← require entry spec "methods")
  let package ← requireString entry spec "package"
  let service ← requireString entry spec "interface"
  let instanceId ← require entry spec "instanceId"
  let version ← Version.ofJson entry (← require entry spec "version")
  .ok (.interface entry package service (scalarText instanceId) version methods)

/-- A binding to a custom origin. -/
def customOf (entry : String) (payload : Json) : Except Fault Directive := do
  let spec ← bindingFields entry payload
  let methods ← Methods.ofJson entry (← require entry spec "methods")
  let origin ← requireString entry spec "origin"
  .ok (.custom entry origin (flag spec "sharedOrigin") (flag spec "sharedAttribute") methods)

mutual
/-- The directive that the payload of a key makes. The options of a dispatcher are built
under the dispatcher's own name. -/
def build (entry : String) : FactoryKey → Json → Except Fault Directive
  | .constants, payload => .ok (constant entry payload)
  | .defaultValue, payload => .ok (constant entry payload)
  | .francaIDL, payload => interfaceOf entry payload
  | .parentAttribute, payload => parentAttributeOf entry payload
  | .custom, payload => customOf entry payload
  | .dispatcher, .object spec => do
    let selector ← requireString entry spec "selector"
    let options ← optionsField entry spec
    .ok (dispatcher entry selector options)
  | .dispatcher, _ => .error (.malformed entry .dispatcherType)
/-- The options under the key `options` of a dispatcher. -/
def optionsField (entry : String) : List (String × Json) → Except Fault (List Directive)
  | [] => .error (.missingKey entry "options")
  | (key, value) :: rest =>
    if key = "options" then optionsPayload entry value else optionsField entry rest
/-- The options of a dispatcher, which have to be a list. -/
def optionsPayload (entry : String) : Json → Except Fault (List Directive)
  | .array items => optionList entry items
  | _ => .error (.malformed entry .optionsType)
/-- The directives of the options, of which the empty ones are skipped. -/
def optionList (entry : String) : List Json → Except Fault (List Directive)
  | [] => .ok []
  | item :: rest => do
    let first ← option? entry item
    let others ← optionList entry rest
    .ok (first.toList ++ others)
/-- The directive of an option, which has to be a mapping. -/
def option? (entry : String) : Json → Except Fault (Option Directive)
  | .object fields => firstField? entry fields
  | _ => .error (.malformed entry .optionType)
/-- The directive that the first key of an option makes. -/
def firstField? (entry : String) : List (String × Json) → Except Fault (Option Directive)
  | [] => .ok none
  | (key, value) :: _ =>
    match FactoryKey.ofText? key with
    | some factoryKey => (build entry factoryKey value).map some
    | none => .error (.unknownKey entry key)
end

/-- The earliest factory key that a mapping has, with its payload. -/
def factoryPayload? (config : List (String × Json)) : Option (FactoryKey × Json) :=
  FactoryKey.all.findSome? fun key => (Json.field? config key.text).map (key, ·)

/-- The directive of a mapping, none if it has no factory key. -/
def ofConfig (entry : String) (config : List (String × Json)) :
    Except Fault (Option Directive) :=
  match factoryPayload? config with
  | some (key, payload) => (build entry key payload).map some
  | none => .ok none

end Directive

end SignalSchema.Deploy
