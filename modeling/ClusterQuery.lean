import ClusterQuery.Catalog.Cache
import ClusterQuery.Catalog.Kind
import ClusterQuery.Catalog.Listing
import ClusterQuery.CommandLine.Arguments
import ClusterQuery.CommandLine.Help
import ClusterQuery.CommandLine.Run
import ClusterQuery.Decimal.Binary64
import ClusterQuery.Decimal.Shortest
import ClusterQuery.Document.Basic
import ClusterQuery.Document.Merge
import ClusterQuery.Document.Number
import ClusterQuery.Document.Writer
import ClusterQuery.Execution.Engine
import ClusterQuery.Execution.Error
import ClusterQuery.Execution.Plan
import ClusterQuery.Execution.Result
import ClusterQuery.Execution.Run
import ClusterQuery.FieldPath.Basic
import ClusterQuery.FieldPath.Reach
import ClusterQuery.FieldPath.Text
import ClusterQuery.Graph.Basic
import ClusterQuery.Graph.Drawing
import ClusterQuery.Json.Basic
import ClusterQuery.Json.Decode
import ClusterQuery.Json.NumberText
import ClusterQuery.Json.Token
import ClusterQuery.Keyed
import ClusterQuery.Main
import ClusterQuery.Proofs.Catalog.Resolution
import ClusterQuery.Proofs.Document.Merging
import ClusterQuery.Proofs.Execution.Assigning
import ClusterQuery.Proofs.Execution.Conditions
import ClusterQuery.Proofs.Execution.Ending
import ClusterQuery.Proofs.Execution.Finding
import ClusterQuery.Proofs.Execution.FullMatch
import ClusterQuery.Proofs.Execution.Links
import ClusterQuery.Proofs.Execution.Match
import ClusterQuery.Proofs.Execution.Outcomes
import ClusterQuery.Proofs.Execution.Overwriting
import ClusterQuery.Proofs.Execution.Patches
import ClusterQuery.Proofs.Execution.Planning
import ClusterQuery.Proofs.Execution.Question
import ClusterQuery.Proofs.Execution.Reading
import ClusterQuery.Proofs.Execution.Steps
import ClusterQuery.Proofs.Execution.Unlogged
import ClusterQuery.Proofs.Graph.Forest
import ClusterQuery.Proofs.Graph.WellFormed
import ClusterQuery.Proofs.Keys
import ClusterQuery.Proofs.Query.Acceptance
import ClusterQuery.Proofs.Query.Derivation
import ClusterQuery.Proofs.Query.Grammar
import ClusterQuery.Proofs.Query.Image
import ClusterQuery.Proofs.Query.Language
import ClusterQuery.Proofs.Query.Lexing
import ClusterQuery.Proofs.Query.Mentions
import ClusterQuery.Proofs.Query.Pattern
import ClusterQuery.Proofs.Query.PrintedPattern
import ClusterQuery.Proofs.Query.PrintedPhrase
import ClusterQuery.Proofs.Query.PrintedText
import ClusterQuery.Proofs.Query.Recognition
import ClusterQuery.Proofs.Query.Reprinting
import ClusterQuery.Proofs.Query.RoundTrip
import ClusterQuery.Proofs.Query.Spelling
import ClusterQuery.Proofs.Relation.Core
import ClusterQuery.Proofs.Relation.Cut
import ClusterQuery.Proofs.Relation.Round
import ClusterQuery.Proofs.Store.Writing
import ClusterQuery.Query.Basic
import ClusterQuery.Query.Lexer
import ClusterQuery.Query.Literal
import ClusterQuery.Query.Outline
import ClusterQuery.Query.Parser
import ClusterQuery.Query.Printer
import ClusterQuery.Query.Token
import ClusterQuery.Relation.Narrowing
import ClusterQuery.Relation.Rule
import ClusterQuery.Relation.RuleText
import ClusterQuery.Report.Format
import ClusterQuery.Report.Table
import ClusterQuery.Selector.Basic
import ClusterQuery.Selector.Grammar
import ClusterQuery.Session
import ClusterQuery.Settings
import ClusterQuery.Store.Basic
import ClusterQuery.Store.Call
import ClusterQuery.Store.Error
import ClusterQuery.Store.Gateway
import ClusterQuery.Store.Snapshot
import ClusterQuery.Store.Uid
import ClusterQuery.Text.Blank
import ClusterQuery.Text.CaseTable
import ClusterQuery.Text.EmojiTable
import ClusterQuery.Text.Follower
import ClusterQuery.Text.HiddenTable
import ClusterQuery.Text.LowerCase
import ClusterQuery.Text.Quoted
import ClusterQuery.Text.Shown
import ClusterQuery.Text.Width
import ClusterQuery.Text.WidthTable
import ClusterQuery.Proofs.Execution.Framing
import ClusterQuery.Proofs.Execution.Answering
import ClusterQuery.Proofs.Store.Removing
import ClusterQuery.Proofs.Execution.Deleting
import ClusterQuery.Proofs.Execution.Overlapping
import ClusterQuery.Proofs.Execution.Describing
import ClusterQuery.Proofs.Store.Inserting
import ClusterQuery.Proofs.Execution.Creating
import ClusterQuery.Proofs.FieldPath.Plain
import ClusterQuery.Proofs.Execution.Refusing
import ClusterQuery.Proofs.Execution.Respecting
import ClusterQuery.Proofs.Session.Running
import ClusterQuery.Proofs.Session.Concealing
import ClusterQuery.Proofs.Catalog.Transparency
import ClusterQuery.Proofs.Execution.Instances
import ClusterQuery.Proofs.Store.Identities
import ClusterQuery.Proofs.Execution.Identifying
import ClusterQuery.Proofs.Session.Uniqueness
import ClusterQuery.Proofs.Catalog.Discovery
import ClusterQuery.Proofs.Execution.Comparing
import ClusterQuery.Proofs.Execution.Placing
import ClusterQuery.Proofs.Execution.Turning
import ClusterQuery.Proofs.Execution.Constraining
import ClusterQuery.Proofs.Execution.Confining
import ClusterQuery.Proofs.Document.Overlaying
import ClusterQuery.Proofs.Execution.Components
import ClusterQuery.Proofs.Execution.Selecting
import ClusterQuery.Proofs.FieldPath.Clashing
import ClusterQuery.Proofs.Execution.Setting
import ClusterQuery.Proofs.FieldPath.Cutting
import ClusterQuery.Proofs.FieldPath.Rereading
import ClusterQuery.Proofs.Query.Agreeing
import ClusterQuery.Proofs.Store.Following
import ClusterQuery.Proofs.Catalog.WriteOnce
import ClusterQuery.Proofs.Catalog.Naming
import ClusterQuery.Proofs.Execution.Serving
import ClusterQuery.Proofs.Lists
import ClusterQuery.Proofs.Execution.Sending
import ClusterQuery.Proofs.Selector.Patterns
import ClusterQuery.Proofs.Selector.Keys
import ClusterQuery.Proofs.Selector.Building
import ClusterQuery.Proofs.Selector.Rendering
import ClusterQuery.Proofs.Query.Quoting
