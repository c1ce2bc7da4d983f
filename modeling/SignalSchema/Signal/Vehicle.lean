import SignalSchema.Deploy.DirectiveMap
import SignalSchema.Signal.Directives

/-!
# Vehicles

The part of a signal tree that a layer deploys. A child is kept when the flat map has its
name and when it did not lose everything below it: branches without deployed leaves go.
-/

namespace SignalSchema

open Deploy (Directive Entry FlatMap Cardinality)

/-- A kept signal with its deployment. -/
structure VehicleSignal where
  signal : Signal
  /-- The layer's entry for the signal, the first one of several. -/
  entry : Option Entry
  deploy : Option Directive
  directives : SignalDirectives

namespace VehicleSignal

/-- Whether the entry stands for one value or for several. -/
def cardinality (v : VehicleSignal) : Option Cardinality :=
  v.entry.map (·.cardinality)

/-- Whether the signal can be written to. -/
def hasWriteMethod (v : VehicleSignal) : Bool :=
  v.deploy.any (·.hasWriteMethod)

/-- The description, with the unit on a line of its own. A signal with a unit and without a
description is described by its name. -/
def description (v : VehicleSignal) : Option String :=
  let text := v.signal.description.filter fun d => !d.isEmpty
  match v.signal.unit with
  | some unit => some (text.getD v.signal.name ++ "\n@Unit: " ++ unit)
  | none => text

/-- Why the signal should not be used any more. -/
def deprecation (v : VehicleSignal) : Option String :=
  v.signal.deprecation.filter fun d => !d.isEmpty

/-- The name with the directives on one line. -/
def line (v : VehicleSignal) : String :=
  v.signal.qualifiedName "." ++ v.directives.display

end VehicleSignal

/-- The kept part of a signal tree. -/
inductive Vehicle where
  | node (top : VehicleSignal) (children : List Vehicle)

namespace Vehicle

/-- The signal at the root. -/
def top : Vehicle → VehicleSignal
  | node v _ => v

/-- The vehicles below the root. -/
def children : Vehicle → List Vehicle
  | node _ cs => cs

/-- Whether nothing is below the root. -/
def isLeaf (v : Vehicle) : Bool :=
  v.children.isEmpty

mutual
/-- All parts, each before those below it. -/
def walk : Vehicle → List Vehicle
  | node v cs => node v cs :: walkAll cs
/-- All parts of several vehicles. -/
def walkAll : List Vehicle → List Vehicle
  | [] => []
  | v :: rest => v.walk ++ walkAll rest
end

/-- A result along with the registry, which keeps what was registered before a fault. -/
abbrev Registering (α : Type) := ExceptT Fault (StateM Registry) α

/-- A result that does not depend on the registry. -/
def Registering.ofExcept {α : Type} : Except Fault α → Registering α
  | .ok a => pure a
  | .error e => throw e

/-- The entry that a layer has for a signal. -/
def entry? (flat : Option FlatMap) (signal : Signal) : Option Entry :=
  (flat.bind (·.get? (signal.qualifiedName "_"))).bind (·.first?)

/-- Whether a layer deploys a signal. Without a layer all signals are. -/
def isDeployed (flat : Option FlatMap) (signal : Signal) : Bool :=
  flat.all (·.contains (signal.qualifiedName "_"))

mutual
/-- The part of a tree that is deployed. The permissions of the visited leaves are
registered on the way. -/
def ofTree (flat : Option FlatMap) : SignalTree → Registering Vehicle
  | .node signal cs => do
    let entry := entry? flat signal
    let deploy ←
      match entry with
      | some e => Registering.ofExcept e.resolve
      | none => pure none
    modify (·.registerTree (.node signal cs))
    let kept ← keptChildren flat cs
    pure (.node ⟨signal, entry, deploy, SignalDirectives.ofTree (.node signal cs)⟩ kept)
/-- The deployed parts of the children. -/
def keptChildren (flat : Option FlatMap) : List SignalTree → Registering (List Vehicle)
  | [] => pure []
  | child :: rest => do
    if isDeployed flat child.signal then
      let v ← ofTree flat child
      let kept ← keptChildren flat rest
      pure (if child.isLeaf == v.isLeaf then v :: kept else kept)
    else keptChildren flat rest
end

end Vehicle

end SignalSchema
