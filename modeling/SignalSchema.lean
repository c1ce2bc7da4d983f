import SignalSchema.CommandLine.Arguments
import SignalSchema.CommandLine.Generator
import SignalSchema.CommandLine.LayerListing
import SignalSchema.CommandLine.Report
import SignalSchema.Decimal.Digits
import SignalSchema.Decimal.Double
import SignalSchema.Decimal.Layout
import SignalSchema.Decimal.Shortest
import SignalSchema.Deploy.Directive
import SignalSchema.Deploy.DirectiveMap
import SignalSchema.Deploy.Entry
import SignalSchema.Deploy.Factory
import SignalSchema.Deploy.FlatMap
import SignalSchema.Deploy.Keys
import SignalSchema.Deploy.Methods
import SignalSchema.Deploy.Version
import SignalSchema.Document
import SignalSchema.Fault
import SignalSchema.Files.Basic
import SignalSchema.Files.Path
import SignalSchema.Frontend
import SignalSchema.Json.Basic
import SignalSchema.Json.Printer
import SignalSchema.Json.Reader
import SignalSchema.Layer.Loader
import SignalSchema.Main
import SignalSchema.Permission.Declared
import SignalSchema.Permission.File
import SignalSchema.Permission.Registry
import SignalSchema.Permission.Text
import SignalSchema.Project
import SignalSchema.Proofs.CommandLine.Directives
import SignalSchema.Proofs.Compilation
import SignalSchema.Proofs.Decimal.Magnitude
import SignalSchema.Proofs.Deploy.Grammar
import SignalSchema.Proofs.Deploy.Names
import SignalSchema.Proofs.Deploy.Nesting
import SignalSchema.Proofs.Deploy.Order
import SignalSchema.Proofs.Deploy.Resolution
import SignalSchema.Proofs.Deploy.Version
import SignalSchema.Proofs.Deploy.VersionText
import SignalSchema.Proofs.Deploy.Walk
import SignalSchema.Proofs.Document
import SignalSchema.Proofs.Files.Frame
import SignalSchema.Proofs.Files.FullPath
import SignalSchema.Proofs.Files.Replacement
import SignalSchema.Proofs.Json.DistinctNames
import SignalSchema.Proofs.Json.Integers
import SignalSchema.Proofs.Json.Quoted
import SignalSchema.Proofs.Layer.Agreement
import SignalSchema.Proofs.Layer.Includes
import SignalSchema.Proofs.Layer.Loading
import SignalSchema.Proofs.Permission.Coverage
import SignalSchema.Proofs.Permission.FirstSeen
import SignalSchema.Proofs.Permission.Numbering
import SignalSchema.Proofs.Permission.Saving
import SignalSchema.Proofs.Permission.Session
import SignalSchema.Proofs.Permission.Written
import SignalSchema.Proofs.Recompilation
import SignalSchema.Proofs.Results
import SignalSchema.Proofs.Schema.AttributeNames
import SignalSchema.Proofs.Schema.Built
import SignalSchema.Proofs.Schema.Collected
import SignalSchema.Proofs.Schema.Completed
import SignalSchema.Proofs.Schema.Connecting
import SignalSchema.Proofs.Schema.Faults
import SignalSchema.Proofs.Schema.FieldPermissions
import SignalSchema.Proofs.Schema.Flags
import SignalSchema.Proofs.Schema.InTurn
import SignalSchema.Proofs.Schema.IncludeDirectories
import SignalSchema.Proofs.Schema.Includes
import SignalSchema.Proofs.Schema.ListIncludes
import SignalSchema.Proofs.Schema.ListItem
import SignalSchema.Proofs.Schema.Lookups
import SignalSchema.Proofs.Schema.Marking
import SignalSchema.Proofs.Schema.Registered
import SignalSchema.Proofs.Schema.Remarking
import SignalSchema.Proofs.Schema.Reordering
import SignalSchema.Proofs.Schema.Spellings
import SignalSchema.Proofs.Schema.TypeReferences
import SignalSchema.Proofs.Schema.WellFormed
import SignalSchema.Proofs.Signal.Deployment
import SignalSchema.Proofs.Signal.Exported
import SignalSchema.Proofs.Signal.Vehicle
import SignalSchema.Proofs.Signal.Ways
import SignalSchema.Proofs.Sorting
import SignalSchema.Proofs.Table
import SignalSchema.Proofs.Text
import SignalSchema.Schema.Annotations
import SignalSchema.Schema.Basic
import SignalSchema.Schema.Builder
import SignalSchema.Schema.Includes
import SignalSchema.Schema.ListItems
import SignalSchema.Schema.Names
import SignalSchema.Schema.Printer
import SignalSchema.Sdl.Catalog
import SignalSchema.Sdl.Lowering
import SignalSchema.Sdl.Parser
import SignalSchema.Sdl.Quoted
import SignalSchema.Sdl.Syntax
import SignalSchema.Sdl.Token
import SignalSchema.Sdl.Validation
import SignalSchema.Sdl.Values
import SignalSchema.Signal.Directives
import SignalSchema.Signal.Node
import SignalSchema.Signal.Vehicle
import SignalSchema.Table
import SignalSchema.Text.Blank
import SignalSchema.Text.CaseTable
import SignalSchema.Text.LowerCase
import SignalSchema.Yaml.Anchors
import SignalSchema.Yaml.Core
import SignalSchema.Yaml.Cursor
import SignalSchema.Yaml.Document
import SignalSchema.Yaml.Grammar
import SignalSchema.Yaml.Lexer
import SignalSchema.Yaml.Node
import SignalSchema.Yaml.Printer
import SignalSchema.Yaml.Scalar.Block
import SignalSchema.Yaml.Scalar.Gap
import SignalSchema.Yaml.Scalar.Plain
import SignalSchema.Yaml.Scalar.Quoted
import SignalSchema.Yaml.Scalar.Written
import SignalSchema.Yaml.Tag
import SignalSchema.Yaml.Token
import SignalSchema.Yaml.Value
