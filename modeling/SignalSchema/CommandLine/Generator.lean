import SignalSchema.CommandLine.Arguments
import SignalSchema.CommandLine.Report

/-!
# The generator

Runs a command on a project. What was reported before a fault stays reported, and what was
written stays written.
-/

namespace SignalSchema.CommandLine

/-- How a program ended. -/
structure Outcome where
  status : Nat
  /-- What was written to standard output. -/
  lines : List String
  /-- The fault that ended it. -/
  fault : Option Fault

namespace Outcome

/-- A program that did what it was asked for. -/
def success (lines : List String) : Outcome := ⟨0, lines, none⟩

/-- A program that was ended by a fault. -/
def failure (lines : List String) (fault : Fault) : Outcome := ⟨1, lines, some fault⟩

/-- A program that did not understand its arguments. -/
def misuse : Outcome := ⟨2, [], none⟩

end Outcome

/-- The outcome of a computation; a fault is reported after the given lines. -/
def outcomeOf {α : Type} (before : List String) (report : α → List String) (filing : Filing α) :
    StateM Files Outcome := do
  match ← filing.run with
  | .ok a => return .success (report a)
  | .error f => return .failure before f

/-- The signals of the tree in a file that a compiled project deploys, and the registry with their
permissions. -/
def deployedSignals (treePath : String) (output : Output) : Filing (Vehicle × Registry) := do
  let tree ← SignalTree.load (← get) treePath
  let (kept, registry) := ((Vehicle.ofTree (some output.flat) tree).run output.registry).run
  return (← kept, registry)

/-- Reports the deployed signals of a tree and saves the permissions that they add. -/
def runDirectives (project : Project) (treePath : String) : StateM Files Outcome := do
  match ← (do deployedSignals treePath (← project.compile) : Filing _).run with
  | .error f => return .failure [] f
  | .ok (vehicle, registry) =>
    let signals := Report.signals vehicle
    outcomeOf signals (fun isSaved => signals ++ Report.saved isSaved)
      (project.savePermissions registry)

/-- Runs a command, which takes the given milliseconds if it is a check. -/
def runCommand (elapsed : Nat) (project : Project) : Command → StateM Files Outcome
  | .check => outcomeOf Report.failedCheck (Report.check · elapsed) project.check
  | .dump =>
    outcomeOf [] (fun o => Report.types o.schema ++ Report.saved o.permissionsSaved) project.compile
  | .includes => outcomeOf [] (fun o => o.schema.includes) project.compile
  | .permissions => outcomeOf [] (fun o => Report.permissions o.registry) project.compile
  | .directives treePath => runDirectives project treePath

/-- Runs the generator with the given arguments. -/
def generate (elapsed : Nat) (arguments : List String) : StateM Files Outcome := do
  match Request.ofArguments arguments with
  | .run project command => runCommand elapsed project command
  | .help => return .success []
  | .version => return .success [title]
  | .misuse => return .misuse

end SignalSchema.CommandLine
