import DesignLink.CommandLine.Arguments
import DesignLink.CommandLine.Help
import DesignLink.CommandLine.Perform
import DesignLink.Declaration.Complaint
import DesignLink.Declaration.Connections
import DesignLink.Declaration.HelperCall
import DesignLink.Declaration.Values
import DesignLink.Dictionary
import DesignLink.Disk.Access
import DesignLink.Disk.Basic
import DesignLink.Disk.Resolve
import DesignLink.Main
import DesignLink.Mapping.Basic
import DesignLink.Mapping.Derived
import DesignLink.Mapping.Document
import DesignLink.Mapping.Printer
import DesignLink.Mapping.Template
import DesignLink.Number.Basic
import DesignLink.Number.Decimal
import DesignLink.Number.Layout
import DesignLink.Number.Shortest
import DesignLink.Problem
import DesignLink.Project.Configuration
import DesignLink.Project.ConnectionFile
import DesignLink.Project.Failure
import DesignLink.Project.Grouping
import DesignLink.Project.Outcome
import DesignLink.Project.Path
import DesignLink.Project.Responder
import DesignLink.Project.Run
import DesignLink.Project.Search
import DesignLink.Proofs.Declaration.Declared
import DesignLink.Proofs.Declaration.Helpers
import DesignLink.Proofs.Declaration.Literals
import DesignLink.Proofs.Declaration.Published
import DesignLink.Proofs.Declaration.RoundTrip
import DesignLink.Proofs.Mapping.Declarable
import DesignLink.Proofs.Mapping.Rendered
import DesignLink.Proofs.Number.Decimal
import DesignLink.Proofs.Number.Format
import DesignLink.Proofs.Number.Rounding
import DesignLink.Proofs.Results
import DesignLink.Proofs.Script.Arrows
import DesignLink.Proofs.Script.Calls
import DesignLink.Proofs.Script.Lexing
import DesignLink.Proofs.Script.Lists
import DesignLink.Proofs.Script.Modules
import DesignLink.Proofs.Script.Numerals
import DesignLink.Proofs.Script.Objects
import DesignLink.Proofs.Script.Operands
import DesignLink.Proofs.Script.Paths
import DesignLink.Proofs.Script.Patterns
import DesignLink.Proofs.Script.QuotedString
import DesignLink.Proofs.Script.Running
import DesignLink.Proofs.Script.Statements
import DesignLink.Proofs.Script.Values
import DesignLink.Proofs.Text.Span
import DesignLink.Protocol.Component
import DesignLink.Protocol.Exchange
import DesignLink.Protocol.Message
import DesignLink.Script.Bindings
import DesignLink.Script.Classes
import DesignLink.Script.Functions
import DesignLink.Script.Gap
import DesignLink.Script.Literals
import DesignLink.Script.Markup
import DesignLink.Script.Module
import DesignLink.Script.NumberLiteral
import DesignLink.Script.Operators
import DesignLink.Script.Parser
import DesignLink.Script.Rules
import DesignLink.Script.Statements
import DesignLink.Script.StringLiteral
import DesignLink.Script.Token
import DesignLink.Script.Tree
import DesignLink.Script.Types
import DesignLink.Settings
import DesignLink.Shell.Format
import DesignLink.Shell.Parser
import DesignLink.Shell.Pattern
import DesignLink.Shell.Run
import DesignLink.Shell.Syntax
import DesignLink.Shell.Tool
import DesignLink.Text.Bytes
import DesignLink.Text.HiddenTable
import DesignLink.Text.Identifier
import DesignLink.Text.IdentifierTable
import DesignLink.Text.Quoted
import DesignLink.Text.Source
import DesignLink.Text.Visible
import DesignLink.Text.Words
import DesignLink.Wire.Doc
import DesignLink.Wire.Fault
import DesignLink.Wire.Json
import DesignLink.Wire.Numeral
import DesignLink.Wire.Reader
import DesignLink.Wire.Record
import DesignLink.Wire.Refusal
import DesignLink.Wire.Tagged
import DesignLink.Proofs.Declaration.Connections
import DesignLink.Proofs.Mapping.Derived
import DesignLink.Proofs.Project.ConnectionFile
import DesignLink.Proofs.Project.Requests
import DesignLink.Proofs.Disk.Growth
import DesignLink.Proofs.Disk.Steps
import DesignLink.Proofs.Disk.Placing
import DesignLink.Proofs.Disk.Passages
import DesignLink.Proofs.Disk.Folders
import DesignLink.Proofs.Disk.Sites
import DesignLink.Proofs.Disk.Dots
import DesignLink.Proofs.Project.Writing
import DesignLink.Proofs.Project.Paths
import DesignLink.Proofs.Project.Grouping
import DesignLink.Proofs.Project.Orders
import DesignLink.Proofs.Mapping.Told
import DesignLink.Proofs.Mapping.Unambiguous
import DesignLink.Proofs.Wire.Numerals
import DesignLink.Proofs.Wire.Strings
import DesignLink.Proofs.Wire.Scanning
import DesignLink.Proofs.Wire.Reading
import DesignLink.Proofs.Wire.Records
import DesignLink.Proofs.Wire.Exact
import DesignLink.Proofs.Wire.Pretty
import DesignLink.Proofs.Mapping.Received
import DesignLink.Proofs.Mapping.Lossless
import DesignLink.Proofs.Mapping.Exchanged
import DesignLink.Proofs.Project.Specifiers
import DesignLink.Proofs.Wire.Fields
import DesignLink.Proofs.Wire.Tags
import DesignLink.Proofs.Protocol.Responses
import DesignLink.Proofs.Protocol.Outcomes
import DesignLink.Proofs.Protocol.Answers
import DesignLink.Proofs.Number.Range
import DesignLink.Proofs.Wire.Ranges
import DesignLink.Proofs.Wire.Sizes
import DesignLink.Proofs.Wire.Stable
import DesignLink.Proofs.Wire.StableRecords
import DesignLink.Proofs.Wire.StableChoices
import DesignLink.Proofs.Mapping.Selectors
import DesignLink.Proofs.Mapping.Stable
import DesignLink.Proofs.Protocol.Canonical
import DesignLink.Proofs.Declaration.Origins
import DesignLink.Proofs.Project.Publishing
import DesignLink.Proofs.Disk.Tidy
import DesignLink.Proofs.Project.Discovery
import DesignLink.Proofs.Layout.Tree
import DesignLink.Proofs.Layout.Scanning
import DesignLink.Proofs.Layout.Passages
import DesignLink.Proofs.Layout.Types
import DesignLink.Proofs.Layout.Functions
import DesignLink.Proofs.Layout.Markup
import DesignLink.Proofs.Layout.Operators
import DesignLink.Proofs.Layout.Statements
import DesignLink.Proofs.Layout.Modules
import DesignLink.Proofs.Layout.Covers
import DesignLink.Proofs.Declaration.Outermost
import DesignLink.Proofs.Mapping.LookUps
import DesignLink.Proofs.Declaration.Entries
import DesignLink.Proofs.Declaration.Arguments
import DesignLink.Proofs.Declaration.ConnectArguments
import DesignLink.Proofs.Declaration.Retold
import DesignLink.Proofs.Declaration.Transparent
import DesignLink.Proofs.Declaration.Templates
import DesignLink.Proofs.Script.Closing
import DesignLink.Proofs.Script.Enclosed
import DesignLink.Proofs.Declaration.Wrapped
import DesignLink.Proofs.Declaration.Captured
import DesignLink.Proofs.Disk.Following
import DesignLink.Proofs.Disk.Making
import DesignLink.Proofs.Disk.Frontier
import DesignLink.Proofs.Project.Declining
import DesignLink.Proofs.Text.ByteOrder
import DesignLink.Proofs.Project.Searching
import DesignLink.Proofs.Project.ImportedNames
import DesignLink.Proofs.Mapping.Definitions
import DesignLink.Proofs.Project.Resolving
import DesignLink.Proofs.Declaration.Settings
import DesignLink.Proofs.Text.Locations
import DesignLink.Proofs.Project.ComponentNames
