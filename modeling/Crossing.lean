import Crossing.Building.Builder
import Crossing.Building.Item
import Crossing.Building.Recipe
import Crossing.Building.Recognizer
import Crossing.Building.Rule
import Crossing.Building.Tags
import Crossing.Building.TypeModel
import Crossing.Bundle
import Crossing.Capability.Builtin
import Crossing.Capability.Document
import Crossing.Capability.Table
import Crossing.CommandLine.Arguments
import Crossing.CommandLine.Host
import Crossing.CommandLine.Machine
import Crossing.CommandLine.Program
import Crossing.CommandLine.Project
import Crossing.CommandLine.Session
import Crossing.Config.Document
import Crossing.Decimal.Notation
import Crossing.Decimal.Shortest
import Crossing.Diagnostic
import Crossing.Export.Collection
import Crossing.Export.Item
import Crossing.Findings
import Crossing.Identifier.Style
import Crossing.Identifier.Words
import Crossing.InterfaceType.Basic
import Crossing.InterfaceType.Graph
import Crossing.InterfaceType.Render
import Crossing.InterfaceType.Table
import Crossing.Json.Basic
import Crossing.Json.Display
import Crossing.Json.Parser
import Crossing.Json.Place
import Crossing.Json.Printer
import Crossing.Layout.Basic
import Crossing.Layout.Check
import Crossing.Layout.Engine
import Crossing.Log.Logger
import Crossing.Log.Record
import Crossing.Log.Settings
import Crossing.Log.Setup
import Crossing.Main
import Crossing.Native.Declaration
import Crossing.Native.Document
import Crossing.Native.Fault
import Crossing.Native.Tree
import Crossing.Nominal.Component
import Crossing.Nominal.Graph
import Crossing.Nominal.Index
import Crossing.Ownership.Mode
import Crossing.Ownership.Resolver
import Crossing.Ownership.Resource
import Crossing.Ownership.Rule
import Crossing.Ownership.Slot
import Crossing.Path
import Crossing.QualifiedName
import Crossing.Report
import Crossing.Run
import Crossing.Span
import Crossing.Steps
import Crossing.Text.Bands
import Crossing.Text.Blank
import Crossing.Text.ClassTable
import Crossing.Text.Letter
import Crossing.Text.LetterTable
import Crossing.Text.Quoted
import Crossing.Text.Template
import Crossing.Toml.Moment
import Crossing.Toml.Parser
import Crossing.Toml.Quoted
import Crossing.TypeExpr.Basic
import Crossing.TypeExpr.Enumerable
import Crossing.TypeExpr.Name
import Crossing.TypeExpr.Parser
import Crossing.TypeExpr.Render
import Crossing.TypeExpr.Size
import Crossing.TypeExpr.Token
import Crossing.Validation
import Crossing.Proofs.Alias.Transparent
import Crossing.Proofs.Building.Alone
import Crossing.Proofs.Building.Declared
import Crossing.Proofs.Building.Enumeration
import Crossing.Proofs.Building.Numbered
import Crossing.Proofs.Building.Recognizers
import Crossing.Proofs.Building.Terminating
import Crossing.Proofs.Capability.Document
import Crossing.Proofs.Export.Collection
import Crossing.Proofs.Export.Symbols
import Crossing.Proofs.Follows
import Crossing.Proofs.Identifier.Snake
import Crossing.Proofs.InterfaceType.Parts
import Crossing.Proofs.InterfaceType.Preorder
import Crossing.Proofs.InterfaceType.Table
import Crossing.Proofs.InterfaceType.Ways
import Crossing.Proofs.Keeps
import Crossing.Proofs.Layout.Alignment
import Crossing.Proofs.Layout.Cache
import Crossing.Proofs.Layout.Checked
import Crossing.Proofs.Layout.Copies
import Crossing.Proofs.Layout.Engine
import Crossing.Proofs.Layout.Proper
import Crossing.Proofs.Layout.Sound
import Crossing.Proofs.Layout.Union
import Crossing.Proofs.Log.Routing
import Crossing.Proofs.Native.Places
import Crossing.Proofs.Nominal.Recursion
import Crossing.Proofs.Nominal.Resolution
import Crossing.Proofs.Ownership.Coherence
import Crossing.Proofs.Ownership.Extension
import Crossing.Proofs.Ownership.Hints
import Crossing.Proofs.Ownership.Nesting
import Crossing.Proofs.Ownership.Paths
import Crossing.Proofs.Ownership.Signature
import Crossing.Proofs.Ownership.Transfer
import Crossing.Proofs.Ownership.Walk
import Crossing.Proofs.Run.Closed
import Crossing.Proofs.Run.Extension
import Crossing.Proofs.Run.HelperNames
import Crossing.Proofs.Run.Order
import Crossing.Proofs.Run.Unfilled
import Crossing.Proofs.TypeExpr.Rereading
import Crossing.Proofs.InterfaceType.Preorder
import Crossing.Proofs.Ownership.Walk
import Crossing.Proofs.Building.Recognizers
import Crossing.Proofs.Identifier.Snake
