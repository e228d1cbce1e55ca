import ScriptModules.CommandLine.Command
import ScriptModules.CommandLine.Options
import ScriptModules.Config.Basic
import ScriptModules.Config.Document
import ScriptModules.Decimal.Binary
import ScriptModules.Decimal.Layout
import ScriptModules.Decimal.Read
import ScriptModules.Decimal.Shortest
import ScriptModules.Decimal.Word
import ScriptModules.Failure
import ScriptModules.Files.Site
import ScriptModules.Files.Tree
import ScriptModules.Json.Descriptor
import ScriptModules.Json.Document
import ScriptModules.Json.Fault
import ScriptModules.Json.Read
import ScriptModules.Keyed
import ScriptModules.Machine.Basic
import ScriptModules.Machine.Calls
import ScriptModules.Machine.Embedding
import ScriptModules.Machine.Evaluation
import ScriptModules.Machine.Globals
import ScriptModules.Machine.Loading
import ScriptModules.Machine.Native
import ScriptModules.Machine.Property
import ScriptModules.Main
import ScriptModules.Module.Cache
import ScriptModules.Module.Handler
import ScriptModules.Module.Resolution
import ScriptModules.Module.SearchPath
import ScriptModules.Path.Basic
import ScriptModules.Path.Names
import ScriptModules.Proofs.Config.Merging
import ScriptModules.Proofs.Decimal.Doubles
import ScriptModules.Proofs.Decimal.Integers
import ScriptModules.Proofs.Decimal.Words
import ScriptModules.Proofs.Files.Memory
import ScriptModules.Proofs.Graph.Basic
import ScriptModules.Proofs.Graph.Children
import ScriptModules.Proofs.Graph.Follows
import ScriptModules.Proofs.Graph.Lifetime
import ScriptModules.Proofs.Graph.Records
import ScriptModules.Proofs.Loading.Builtins
import ScriptModules.Proofs.Loading.Entry
import ScriptModules.Proofs.Loading.Escape
import ScriptModules.Proofs.Loading.Handlers
import ScriptModules.Proofs.Loading.Handles
import ScriptModules.Proofs.Loading.Identity
import ScriptModules.Proofs.Loading.Load
import ScriptModules.Proofs.Loading.Once
import ScriptModules.Proofs.Loading.Orphans
import ScriptModules.Proofs.Loading.Requests
import ScriptModules.Proofs.Loading.Require
import ScriptModules.Proofs.Loading.Rollback
import ScriptModules.Proofs.Loading.Traced
import ScriptModules.Proofs.Parsing.Agreement
import ScriptModules.Proofs.Parsing.Grammar
import ScriptModules.Proofs.Parsing.Height
import ScriptModules.Proofs.Parsing.Layout
import ScriptModules.Proofs.Parsing.Lexical
import ScriptModules.Proofs.Parsing.LineEnds
import ScriptModules.Proofs.Parsing.Loops
import ScriptModules.Proofs.Parsing.Phrases
import ScriptModules.Proofs.Parsing.Precedence
import ScriptModules.Proofs.Parsing.Print
import ScriptModules.Proofs.Parsing.Progress
import ScriptModules.Proofs.Parsing.Reading
import ScriptModules.Proofs.Parsing.ReadsBack
import ScriptModules.Proofs.Parsing.RoundTrip
import ScriptModules.Proofs.Parsing.Tightness
import ScriptModules.Proofs.Parsing.WellFormed
import ScriptModules.Proofs.Parsing.Yields
import ScriptModules.Proofs.Path.Canonical
import ScriptModules.Proofs.Path.Composition
import ScriptModules.Proofs.Path.Location
import ScriptModules.Proofs.Path.Names
import ScriptModules.Proofs.Path.Parent
import ScriptModules.Proofs.Path.Rebuilding
import ScriptModules.Proofs.Resolution.Identity
import ScriptModules.Proofs.Resolution.Precedence
import ScriptModules.Proofs.Resolution.SearchPaths
import ScriptModules.Proofs.Resolution.Suffix
import ScriptModules.Proofs.Runs.Alike
import ScriptModules.Proofs.Runs.Changes
import ScriptModules.Proofs.Runs.Closed
import ScriptModules.Proofs.Runs.HostKinds
import ScriptModules.Proofs.Runs.Hosts
import ScriptModules.Proofs.Runs.Lasting
import ScriptModules.Proofs.Runs.Outcome
import ScriptModules.Proofs.Runs.Plain
import ScriptModules.Proofs.Runs.Properties
import ScriptModules.Proofs.Runs.ReadOnly
import ScriptModules.Proofs.Runs.Resuming
import ScriptModules.Proofs.Runs.Rules
import ScriptModules.Proofs.Runs.Scripted
import ScriptModules.Proofs.Runs.Serving
import ScriptModules.Proofs.Runs.Vetted
import ScriptModules.Proofs.Scanning.Layout
import ScriptModules.Proofs.Scanning.Literals
import ScriptModules.Proofs.Scanning.Lookahead
import ScriptModules.Proofs.Scanning.Pieces
import ScriptModules.Proofs.Scanning.Returns
import ScriptModules.Proofs.Scanning.Spelling
import ScriptModules.Proofs.Scanning.Strings
import ScriptModules.Proofs.Scanning.Tiling
import ScriptModules.Proofs.Scanning.Tokens
import ScriptModules.Proofs.Scopes.Aliases
import ScriptModules.Proofs.Scopes.Bindings
import ScriptModules.Proofs.Scopes.Blocks
import ScriptModules.Proofs.Scopes.Constants
import ScriptModules.Proofs.Scopes.Hoisting
import ScriptModules.Proofs.Scopes.Isolation
import ScriptModules.Proofs.Scopes.Ownership
import ScriptModules.Proofs.Scopes.Requests
import ScriptModules.Proofs.Scopes.Same
import ScriptModules.Proofs.Scopes.Stack
import ScriptModules.Proofs.Termination.Budget
import ScriptModules.Proofs.Termination.Ends
import ScriptModules.Proofs.Termination.Fuel
import ScriptModules.Proofs.Termination.Loads
import ScriptModules.Proofs.Termination.Programs
import ScriptModules.Proofs.Termination.Settles
import ScriptModules.Proofs.Toml.Entries
import ScriptModules.Proofs.Values.Arrays
import ScriptModules.Proofs.Values.Data
import ScriptModules.Proofs.Values.Documents
import ScriptModules.Proofs.Values.Equality
import ScriptModules.Proofs.Values.Keys
import ScriptModules.Proofs.Values.RoundTrip
import ScriptModules.Proofs.Values.Unfolding
import ScriptModules.Proofs.Values.Units
import ScriptModules.Proofs.Values.Writes
import ScriptModules.Script.Parse
import ScriptModules.Script.Scan
import ScriptModules.Script.SyntaxFault
import ScriptModules.Script.Token
import ScriptModules.Script.Tree
import ScriptModules.Text.Alphabetic
import ScriptModules.Text.Blank
import ScriptModules.Text.Cased
import ScriptModules.Text.Lowercase
import ScriptModules.Text.Numeric
import ScriptModules.Text.Quoted
import ScriptModules.Text.Range
import ScriptModules.Text.Split
import ScriptModules.Text.Units
import ScriptModules.Text.Visible
import ScriptModules.Toml.Document
import ScriptModules.Toml.Ordered
import ScriptModules.Toml.Read
import ScriptModules.Toml.Tables
import ScriptModules.Value.Basic
import ScriptModules.Value.Caught
import ScriptModules.Value.Environment
import ScriptModules.Value.Heap
import ScriptModules.Value.Host
import ScriptModules.Value.Json
import ScriptModules.Value.Number
import ScriptModules.Value.Operator
import ScriptModules.Value.Text
