import SignalSchema.Project
import SignalSchema.Schema.Printer

/-!
# Reports

The lines in which the generator tells what it did.
-/

namespace SignalSchema.CommandLine

/-- The version of the generator. -/
def version : String := "0.1.0"

/-- The name and version of the generator. -/
def title : String := "vss-codegen " ++ version

namespace Report

/-- The head of a report. -/
def head : String := "  ◆ " ++ title

/-- Good news. -/
def success (text : String) : String := "  ◉ " ++ text

/-- A remark. -/
def remark (text : String) : String := "  " ++ text

/-- A node of the schema or of the signal tree. -/
def node (text : String) : String := "    " ++ text

/-- A part of a node. -/
def child (text : String) : String := "      · " ++ text

/-- The lines that start a section with a number of nodes. -/
def sectionHead (title : String) (count : Nat) : List String :=
  ["", "  ▸ " ++ title ++ " (" ++ toString count ++ ")"]

/-- The lines about a failed check. -/
def failedCheck : List String :=
  ["", "  ◆ Nope.", ""]

/-- The lines about a check that took the given milliseconds. -/
def check (output : Output) (elapsed : Nat) : List String :=
  let stats := output.stats
  [head, success "Looking good.", "",
    "    " ++ toString stats.scalars ++ " scalars · " ++ toString stats.enums ++ " enums · " ++
      toString stats.inputs ++ " inputs · " ++ toString stats.objects ++ " objects",
    "    " ++ toString stats.deployEntries ++ " deploy entries · " ++ toString stats.permissions ++
      " permissions"] ++
    (if output.permissionsChanged then
      [remark "New permissions found; run another command to persist them."] else []) ++
    ["  ◇ Checked in " ++ toString elapsed ++ "ms"]

/-- The parts of a type. -/
def typeParts (schema : Schema) : NamedType → List String
  | .enum t => t.values.map child
  | .object t =>
    (schema.fieldTexts (.object t)).map child ++
      (t.localAttributes.map fun attributes =>
        remark ("    local attributes: " ++ ", ".intercalate attributes.keys)).toList
  | t => (schema.fieldTexts t).map child

/-- The types of a schema, kind by kind. -/
def types (schema : Schema) : List String :=
  TypeKind.all.flatMap fun kind =>
    let ts := schema.ofKind kind
    sectionHead kind.text ts.length ++ ts.flatMap fun t => node t.display :: typeParts schema t

/-- The line that tells that a registry was saved. -/
def saved (isSaved : Bool) : List String :=
  if isSaved then [success "Permissions updated"] else []

/-- A number at the end of at least five columns. -/
def padded (n : Nat) : String :=
  let digits := Nat.toDigits 10 n
  String.ofList (List.replicate (5 - digits.length) ' ' ++ digits)

/-- The permissions with their numbers. -/
def permissions (registry : Registry) : List String :=
  registry.table.entries.map fun (permission, n) => remark (padded n ++ "  " ++ permission)

/-- The signals of a vehicle with their directives. -/
def signals (vehicle : Vehicle) : List String :=
  vehicle.walk.map fun v =>
    let name := v.top.signal.qualifiedName "."
    if v.top.directives.isEmpty then remark name else node v.top.line

end Report

end SignalSchema.CommandLine
