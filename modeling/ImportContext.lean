import ImportContext.Batch.Run
import ImportContext.Batch.Sources
import ImportContext.Bundle.Build
import ImportContext.Bundle.Error
import ImportContext.Bundle.Format
import ImportContext.Bundle.Options
import ImportContext.Bundle.Section
import ImportContext.Bundle.Template
import ImportContext.Bundle.Tokens
import ImportContext.CommandLine.Argument
import ImportContext.CommandLine.Command
import ImportContext.CommandLine.Report
import ImportContext.CommandLine.Run
import ImportContext.Config.Basic
import ImportContext.Config.Load
import ImportContext.Config.Reader
import ImportContext.Dependency.Downloads
import ImportContext.Dependency.Filter
import ImportContext.Dependency.KnownModules
import ImportContext.FileSystem.Basic
import ImportContext.FileSystem.Changes
import ImportContext.FileSystem.Host
import ImportContext.Glob.Match
import ImportContext.Glob.Pattern
import ImportContext.Ignore.Cache
import ImportContext.Ignore.RuleSet
import ImportContext.Ignore.Standard
import ImportContext.Import.Declaration
import ImportContext.Import.Extract
import ImportContext.Json.Printer
import ImportContext.Json.Reader
import ImportContext.Json.Value
import ImportContext.Locate.Error
import ImportContext.Locate.Location
import ImportContext.Locate.Locator
import ImportContext.Locate.Probe
import ImportContext.Locate.ProbeScript
import ImportContext.Locate.Static
import ImportContext.Main
import ImportContext.Module.Identity
import ImportContext.Module.Layout
import ImportContext.Path.Basic
import ImportContext.Shell.Format
import ImportContext.Shell.Run
import ImportContext.Shell.Script
import ImportContext.Source.CasePattern
import ImportContext.Source.Character
import ImportContext.Source.Expression
import ImportContext.Source.ImportReader
import ImportContext.Source.Layout
import ImportContext.Source.Position
import ImportContext.Source.Reader
import ImportContext.Source.Simple
import ImportContext.Source.Statement
import ImportContext.Source.Token
import ImportContext.Template.Expression
import ImportContext.Template.Filter
import ImportContext.Template.Node
import ImportContext.Template.Predicate
import ImportContext.Template.Reader
import ImportContext.Template.Token
import ImportContext.Template.Value
import ImportContext.Text.Blank
import ImportContext.Text.Case
import ImportContext.Text.Lines
import ImportContext.Text.Number
import ImportContext.Text.Utf8
import ImportContext.Toml.Document
import ImportContext.Toml.Scalar
import ImportContext.Toml.Value
import ImportContext.Tree.Build
import ImportContext.Tree.Focus
import ImportContext.Tree.Node
import ImportContext.Proofs.Source.Cursor
import ImportContext.Proofs.Source.Spans
import ImportContext.Proofs.Source.Steps
import ImportContext.Proofs.Source.Words
import ImportContext.Proofs.Locate.Excerpt
import ImportContext.Proofs.Locate.Search
import ImportContext.Proofs.Locate.Soundness
import ImportContext.Proofs.Locate.Completeness
import ImportContext.Proofs.Bundle.Sections
import ImportContext.Proofs.Bundle.Skipping
import ImportContext.Proofs.Path.Names
import ImportContext.Proofs.Ignore.RuleSets
import ImportContext.Proofs.Tree.Nodes
import ImportContext.Proofs.Tree.Assembly
import ImportContext.Proofs.Text.ByteOrder
import ImportContext.Proofs.Tree.Pruning
import ImportContext.Proofs.Module.Lookup
import ImportContext.Proofs.Import.Tokens
import ImportContext.Proofs.Import.Readers
import ImportContext.Proofs.Import.Sequence
import ImportContext.Proofs.Import.Grammar
import ImportContext.Proofs.Import.Positions
import ImportContext.Proofs.Import.ModuleLevel
import ImportContext.Proofs.Import.Written
import ImportContext.Proofs.Import.WellFormed
import ImportContext.Proofs.Import.RoundTrip
import ImportContext.Proofs.FileSystem.Nodes
import ImportContext.Proofs.FileSystem.Writing
import ImportContext.Proofs.Batch.Outputs
import ImportContext.Proofs.Path.Below
import ImportContext.Proofs.Path.Order
import ImportContext.Proofs.Batch.Sources
import ImportContext.Proofs.Batch.Discovery
import ImportContext.Proofs.Batch.Destinations
import ImportContext.Proofs.FileSystem.Ways
import ImportContext.Proofs.FileSystem.Creating
import ImportContext.Proofs.FileSystem.Growth
import ImportContext.Proofs.Batch.Schedules
import ImportContext.Proofs.Batch.Writing
import ImportContext.Proofs.Tree.Focus
import ImportContext.Proofs.Config.Union
import ImportContext.Proofs.Config.Layers
import ImportContext.Proofs.FileSystem.Views
import ImportContext.Proofs.Module.Agreement
import ImportContext.Proofs.Bundle.Agreement
import ImportContext.Proofs.Module.Relative
import ImportContext.Proofs.Module.Packages
import ImportContext.Proofs.Tree.Labels
import ImportContext.Proofs.FileSystem.Descent
import ImportContext.Proofs.Bundle.ProjectTree
import ImportContext.Proofs.Tree.Drawing
import ImportContext.Proofs.Source.Rows
import ImportContext.Proofs.Locate.Runs
import ImportContext.Proofs.Locate.Absence
import ImportContext.Proofs.Text.Number
import ImportContext.Proofs.Text.Trimming
import ImportContext.Proofs.Locate.LineNumbers
import ImportContext.Proofs.Dependency.Tables
import ImportContext.Proofs.Dependency.Elision
import ImportContext.Proofs.Template.Rendering
import ImportContext.Proofs.Template.Reading
import ImportContext.Proofs.Bundle.Templates
import ImportContext.Proofs.Bundle.Text
import ImportContext.Proofs.Path.Normal
import ImportContext.Proofs.Module.Dotted
import ImportContext.Proofs.FileSystem.Spelling
import ImportContext.Proofs.Module.SearchRoots
import ImportContext.Proofs.Ignore.Cache
