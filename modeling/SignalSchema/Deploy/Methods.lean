import SignalSchema.Fault

/-!
# Access methods

How a bound signal is subscribed to, read and written: which attribute, method or broadcast
of the interface serves it and which function or getter converts its value.
-/

namespace SignalSchema.Deploy

/-- A subscription to a broadcast or to the changes of an attribute. -/
structure SubscribeMethod where
  broadcast : Option String
  source : Option String
  function : Option String
  getter : Option String
  deriving DecidableEq, Repr

/-- Fetching a value from an attribute or by a method. -/
structure ReadMethod where
  source : Option String
  method : Option String
  function : Option String
  getter : Option String
  deriving DecidableEq, Repr

/-- Writing a value to an attribute or by a method. -/
structure WriteMethod where
  method : Option String
  source : Option String
  function : Option String
  deriving DecidableEq, Repr

/-- The text under a key of the mapping `source`. -/
def sourceField? (spec : List (String × Json)) (key : String) : Option String :=
  ((Json.field? spec "source").bind Json.fields?).bind (Json.stringField? · key)

namespace SubscribeMethod

/-- The method that a mapping describes. -/
def ofFields (spec : List (String × Json)) : SubscribeMethod where
  broadcast := sourceField? spec "broadcast"
  source := sourceField? spec "attribute"
  function := Json.stringField? spec "conversionFunction"
  getter := Json.stringField? spec "conversionGetter"

/-- What the subscription is fed by. -/
def target (m : SubscribeMethod) : Option String :=
  m.source.or m.broadcast

/-- A subscription to a broadcast yields events and not a state. -/
def isEvent (m : SubscribeMethod) : Bool :=
  m.broadcast.isSome

end SubscribeMethod

namespace ReadMethod

/-- The method that a mapping describes. -/
def ofFields (spec : List (String × Json)) : ReadMethod where
  source := sourceField? spec "attribute"
  method := sourceField? spec "method"
  function := Json.stringField? spec "conversionFunction"
  getter := Json.stringField? spec "conversionGetter"

/-- What the value is fetched from. -/
def target (m : ReadMethod) : Option String :=
  m.source.or m.method

end ReadMethod

namespace WriteMethod

/-- The method that a mapping describes. -/
def ofFields (spec : List (String × Json)) : WriteMethod where
  method := sourceField? spec "method"
  source := sourceField? spec "attribute"
  function := Json.stringField? spec "conversionFunction"

/-- What the value is written to. -/
def target (m : WriteMethod) : Option String :=
  m.source.or m.method

end WriteMethod

/-- One declared method. -/
inductive Method where
  | subscribe (m : SubscribeMethod)
  | read (m : ReadMethod)
  | write (m : WriteMethod)
  deriving DecidableEq, Repr

namespace Method

/-- The kind of a method. -/
def kind : Method → MethodKind
  | subscribe _ => .subscribe
  | read _ => .read
  | write _ => .write

/-- Whether the method yields values. -/
def isRead : Method → Bool
  | write _ => false
  | _ => true

/-- What the method works on. -/
def target : Method → Option String
  | subscribe m => m.target
  | read m => m.target
  | write m => m.target

/-- The function that converts the value. -/
def function : Method → Option String
  | subscribe m => m.function
  | read m => m.function
  | write m => m.function

/-- The getter that converts the value; there is none for writing. -/
def getter : Method → Option String
  | subscribe m => m.getter
  | read m => m.getter
  | write _ => none

/-- A method as an expression over what it works on. -/
def display (m : Method) : String :=
  let target := m.target.getD "?"
  match m.function, m.getter with
  | some f, _ => f ++ "(" ++ target ++ ")"
  | none, some g => target ++ "." ++ g ++ "()"
  | none, none => target

end Method

/-- The methods of a binding. -/
structure Methods where
  subscribe : Option SubscribeMethod
  read : Option ReadMethod
  write : Option WriteMethod
  deriving DecidableEq, Repr

namespace Methods

/-- Values that stand for an absent method. Numbers are not among them. -/
def isVoid : Json → Bool
  | .null => true
  | .bool b => !b
  | .string s => s.isEmpty
  | .array items => items.isEmpty
  | .object fields => fields.isEmpty
  | .number _ => false

/-- The mapping of one method, if it is declared. -/
def method? (entry : String) (spec : List (String × Json)) (kind : MethodKind) :
    Except Fault (Option (List (String × Json))) :=
  match Json.field? spec kind.text with
  | none => .ok none
  | some value =>
    if isVoid value then .ok none
    else
      match value with
      | .object fields => .ok (some fields)
      | _ => .error (.malformed entry (.methodType kind))

/-- The methods that a payload describes. -/
def ofJson (entry : String) (payload : Json) : Except Fault Methods :=
  match payload with
  | .object spec => do
    let subscribe ← method? entry spec .subscribe
    let read ← method? entry spec .read
    let write ← method? entry spec .write
    .ok ⟨subscribe.map .ofFields, read.map .ofFields, write.map .ofFields⟩
  | _ => .error (.malformed entry .methodsType)

/-- The declared methods in the order subscribe, read, write. -/
def toList (ms : Methods) : List Method :=
  (ms.subscribe.map Method.subscribe).toList ++ (ms.read.map Method.read).toList ++
    (ms.write.map Method.write).toList

/-- What the first method works on that works on something. -/
def target (ms : Methods) : Option String :=
  ms.toList.findSome? Method.target

/-- The first function that converts values for a reader. -/
def readFunction (ms : Methods) : Option String :=
  (ms.toList.filter Method.isRead).findSome? Method.function

/-- The function that converts values to be written. -/
def writeFunction (ms : Methods) : Option String :=
  (ms.toList.filter fun m => !m.isRead).findSome? Method.function

/-- The first getter. -/
def getter (ms : Methods) : Option String :=
  ms.toList.findSome? Method.getter

/-- Whether some method has a converting function. -/
def hasImplementation (ms : Methods) : Bool :=
  ms.readFunction.isSome || ms.writeFunction.isSome

/-- Whether the signal is an event. -/
def isEvent (ms : Methods) : Bool :=
  ms.subscribe.any SubscribeMethod.isEvent

/-- Whether the preferred method, read before write before subscribe, works on something. -/
def isAttribute (ms : Methods) : Bool :=
  match ms.read, ms.write, ms.subscribe with
  | some m, _, _ => m.target.isSome
  | none, some m, _ => m.target.isSome
  | none, none, some m => m.target.isSome
  | none, none, none => false

/-- All methods between braces. -/
def display (ms : Methods) : String :=
  r"{" ++ ", ".intercalate (ms.toList.map fun m => m.kind.text ++ "=" ++ m.display) ++ r"}"

end Methods

end SignalSchema.Deploy
