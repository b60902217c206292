import ClientGen.Api.Basic
import ClientGen.Api.Printer
import ClientGen.Api.Reader
import ClientGen.Api.Shape
import ClientGen.Api.ShapeReader
import ClientGen.Command.Arguments
import ClientGen.Command.Run
import ClientGen.Config
import ClientGen.Decimal.Binary64
import ClientGen.Decimal.Shortest
import ClientGen.Diagnostic
import ClientGen.Document.Basic
import ClientGen.Document.Description
import ClientGen.Document.Form
import ClientGen.Document.Load
import ClientGen.Document.Normal
import ClientGen.Document.Reading
import ClientGen.Document.Schema
import ClientGen.Files.Path
import ClientGen.Files.Store
import ClientGen.Files.System
import ClientGen.Files.Tree
import ClientGen.Go.Models
import ClientGen.Go.Operations
import ClientGen.Go.Package
import ClientGen.Go.Requests
import ClientGen.Go.Shapes
import ClientGen.Go.Text
import ClientGen.Json.Cursor
import ClientGen.Json.Failure
import ClientGen.Json.Lexeme
import ClientGen.Json.Numeral
import ClientGen.Json.Printer
import ClientGen.Json.Source
import ClientGen.Json.Token
import ClientGen.Json.Value
import ClientGen.Main
import ClientGen.MediaType
import ClientGen.Naming
import ClientGen.OrderedMap
import ClientGen.Output.Manifest
import ClientGen.Output.Plan
import ClientGen.PathTemplate
import ClientGen.Pointer
import ClientGen.Proofs.Api.Depths
import ClientGen.Proofs.Api.Parameters
import ClientGen.Proofs.Api.Renaming
import ClientGen.Proofs.Api.Rereading
import ClientGen.Proofs.Api.Reshaping
import ClientGen.Proofs.Api.RoundTrip
import ClientGen.Proofs.Api.Shapes
import ClientGen.Proofs.Api.Sorting
import ClientGen.Proofs.Api.Statuses
import ClientGen.Proofs.Command.Generating
import ClientGen.Proofs.Command.Reading
import ClientGen.Proofs.Command.Settling
import ClientGen.Proofs.Command.Sharing
import ClientGen.Proofs.Decimal.Finite
import ClientGen.Proofs.Decimal.Nearest
import ClientGen.Proofs.Decimal.Shortest
import ClientGen.Proofs.Document.Canonical
import ClientGen.Proofs.Document.Correspondence
import ClientGen.Proofs.Document.DistinctMaps
import ClientGen.Proofs.Document.Nodes
import ClientGen.Proofs.Document.Outline
import ClientGen.Proofs.Document.Overriding
import ClientGen.Proofs.Document.Places
import ClientGen.Proofs.Document.Pointers
import ClientGen.Proofs.Document.Reading
import ClientGen.Proofs.Document.References
import ClientGen.Proofs.Document.Reordering
import ClientGen.Proofs.Document.Reports
import ClientGen.Proofs.Document.Representations
import ClientGen.Proofs.Document.Rereading
import ClientGen.Proofs.Document.Room
import ClientGen.Proofs.Document.Success
import ClientGen.Proofs.Files.Changes
import ClientGen.Proofs.Files.Destination
import ClientGen.Proofs.Files.Directories
import ClientGen.Proofs.Files.Following
import ClientGen.Proofs.Files.Parts
import ClientGen.Proofs.Files.Rights
import ClientGen.Proofs.Files.Running
import ClientGen.Proofs.Go.Arguments
import ClientGen.Proofs.Go.Collisions
import ClientGen.Proofs.Go.Comments
import ClientGen.Proofs.Go.Containment
import ClientGen.Proofs.Go.Declarations
import ClientGen.Proofs.Go.Outlines
import ClientGen.Proofs.Go.Paths
import ClientGen.Proofs.Go.Quoting
import ClientGen.Proofs.Go.Scope
import ClientGen.Proofs.Go.Tags
import ClientGen.Proofs.Go.Types
import ClientGen.Proofs.Json.Canonical
import ClientGen.Proofs.Json.Decimals
import ClientGen.Proofs.Json.Depths
import ClientGen.Proofs.Json.Finite
import ClientGen.Proofs.Json.Lexemes
import ClientGen.Proofs.Json.Numerals
import ClientGen.Proofs.Json.Readers
import ClientGen.Proofs.Json.Strings
import ClientGen.Proofs.Json.Texts
import ClientGen.Proofs.Json.Tree
import ClientGen.Proofs.MediaType.Preference
import ClientGen.Proofs.Naming.Canonical
import ClientGen.Proofs.Naming.Grammar
import ClientGen.Proofs.Naming.Runs
import ClientGen.Proofs.Naming.Unique
import ClientGen.Proofs.Order.Stable
import ClientGen.Proofs.OrderedMap.Agreement
import ClientGen.Proofs.OrderedMap.Entries
import ClientGen.Proofs.Output.Cleaning
import ClientGen.Proofs.Output.Committing
import ClientGen.Proofs.Output.Crossing
import ClientGen.Proofs.Output.Exact
import ClientGen.Proofs.Output.Failing
import ClientGen.Proofs.Output.Fresh
import ClientGen.Proofs.Output.Intact
import ClientGen.Proofs.Output.Permitted
import ClientGen.Proofs.Output.Plans
import ClientGen.Proofs.Output.Pruning
import ClientGen.Proofs.Output.Repeating
import ClientGen.Proofs.Output.Tracking
import ClientGen.Proofs.Path.Containment
import ClientGen.Proofs.Path.Steps
import ClientGen.Proofs.PathTemplate.Decomposition
import ClientGen.Proofs.PathTemplate.Scanning
import ClientGen.Proofs.PathTemplate.Splicing
import ClientGen.Proofs.Pointer.Escape
import ClientGen.Proofs.Pointer.Tokens
import ClientGen.Proofs.Results
import ClientGen.Proofs.Schema.Asking
import ClientGen.Proofs.Schema.Depths
import ClientGen.Proofs.Schema.DistinctKeys
import ClientGen.Proofs.Schema.Loading
import ClientGen.Proofs.Schema.Merging
import ClientGen.Proofs.Schema.Nodes
import ClientGen.Proofs.Schema.NormalForm
import ClientGen.Proofs.Schema.NullMembers
import ClientGen.Proofs.Schema.Outline
import ClientGen.Proofs.Schema.Parts
import ClientGen.Proofs.Schema.PlainParts
import ClientGen.Proofs.Schema.Reading
import ClientGen.Proofs.Schema.Reordering
import ClientGen.Proofs.Schema.Spelling
import ClientGen.Proofs.Schema.Unsupported
import ClientGen.Proofs.Schema.Values
import ClientGen.Proofs.Sdk.Finished
import ClientGen.Proofs.Sdk.Literals
import ClientGen.Proofs.Sdk.Paths
import ClientGen.Proofs.Sdk.Places
import ClientGen.Proofs.Shape.Nodes
import ClientGen.Proofs.Shape.Rearranging
import ClientGen.Proofs.Shape.Renaming
import ClientGen.Proofs.Shape.Sorted
import ClientGen.Proofs.Shape.Unknowns
import ClientGen.Proofs.Text.Lines
import ClientGen.Proofs.Text.Quoting
import ClientGen.Proofs.TypeScript.Closed
import ClientGen.Proofs.TypeScript.Comments
import ClientGen.Proofs.TypeScript.Constants
import ClientGen.Proofs.TypeScript.FileNames
import ClientGen.Proofs.TypeScript.FlatTypes
import ClientGen.Proofs.TypeScript.Globals
import ClientGen.Proofs.TypeScript.Grouping
import ClientGen.Proofs.TypeScript.Identifiers
import ClientGen.Proofs.TypeScript.Lexing
import ClientGen.Proofs.TypeScript.Names
import ClientGen.Proofs.TypeScript.Optionality
import ClientGen.Proofs.TypeScript.Quoting
import ClientGen.Proofs.TypeScript.Scope
import ClientGen.Proofs.TypeScript.ShapeTypes
import ClientGen.Proofs.TypeScript.Templates
import ClientGen.Proofs.TypeScript.TypeGrammar
import ClientGen.Proofs.TypeScript.TypeTokens
import ClientGen.Reading
import ClientGen.Sdk.File
import ClientGen.Sdk.Language
import ClientGen.Text.Blank
import ClientGen.Text.Casing
import ClientGen.Text.Quoted
import ClientGen.Toml.Settings
import ClientGen.Toml.Token
import ClientGen.TypeScript.Client
import ClientGen.TypeScript.Code
import ClientGen.TypeScript.Package
import ClientGen.TypeScript.Printer
import ClientGen.TypeScript.Requests
import ClientGen.TypeScript.Shapes
import ClientGen.TypeScript.Text
import ClientGen.TypeScript.Type
import ClientGen.Yaml.Character
import ClientGen.Yaml.Cursor
import ClientGen.Yaml.Node
import ClientGen.Yaml.Scalar
import ClientGen.Yaml.Token
import ClientGen.Yaml.Value
