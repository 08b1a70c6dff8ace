import LivePreview.Text.Blank
import LivePreview.Text.Quoted
import LivePreview.Text.LetterCase
import LivePreview.Text.Occurrence
import LivePreview.Text.Base64
import LivePreview.Text.Markup
import LivePreview.Text.Origin
import LivePreview.Text.CharacterReference
import LivePreview.Number.Numeral
import LivePreview.Number.Shortest
import LivePreview.Json.Writer
import LivePreview.Json.Shown
import LivePreview.Json.Reader
import LivePreview.Path.Specifier
import LivePreview.Tree.Basic
import LivePreview.Syntax.Node
import LivePreview.Lowering.Specifier
import LivePreview.Lowering.JsxText
import LivePreview.Lowering.Numbering
import LivePreview.Lowering.Module
import LivePreview.Tree.Snapshot
import LivePreview.Module.Cache
import LivePreview.Module.Registry
import LivePreview.Command
import LivePreview.Tool.Call
import LivePreview.Preview.Session
import LivePreview.Workspace.Basic
import LivePreview.Workspace.Settings
import LivePreview.Cli.Run
import LivePreview.Http.Server
import LivePreview.Lowering.Parsed
import LivePreview.Main
import LivePreview.Proofs.Lowering.Module
import LivePreview.Proofs.Preview.Linked
import LivePreview.Proofs.Module.Registry
import LivePreview.Proofs.Preview.DepthFirst
import LivePreview.Proofs.Preview.Order
import LivePreview.Proofs.Preview.Publishing
import LivePreview.Proofs.Preview.Spelling
import LivePreview.Proofs.Workspace.Accounting
import LivePreview.Proofs.Lowering.Sites.Tally
import LivePreview.Proofs.Lowering.Sites.Rules
import LivePreview.Proofs.Lowering.Sites.Imports
import LivePreview.Proofs.Lowering.Sites.Module
import LivePreview.Proofs.Lowering.Trace.Module
import LivePreview.Proofs.Lowering.Types.Module
import LivePreview.Proofs.Preview.Elements
import LivePreview.Proofs.Project.Rejection
import LivePreview.Proofs.Project.Freshness
import LivePreview.Proofs.Project.Feed
import LivePreview.Proofs.Tree.Relocation
import LivePreview.Proofs.Tool.Contents
import LivePreview.Proofs.Http.Refusal
import LivePreview.Proofs.Http.Isolation
import LivePreview.Proofs.Project.Revision
import LivePreview.Proofs.Tree.Renaming
import LivePreview.Proofs.Preview.ImportMap
import LivePreview.Proofs.Lowering.JsxText
import LivePreview.Proofs.Lowering.Constructor
import LivePreview.Proofs.Lowering.Enumeration
import LivePreview.Proofs.Lowering.Counting
import LivePreview.Proofs.Lowering.Emitted.Call
import LivePreview.Proofs.Lowering.Emitted.React
import LivePreview.Proofs.Lowering.Emitted.Import
import LivePreview.Proofs.Lowering.Emitted.Front
import LivePreview.Proofs.Lowering.StringValue
import LivePreview.Proofs.Lowering.Script
import LivePreview.Proofs.Lowering.Erased.Module
import LivePreview.Proofs.Lowering.Emitted.Element
import LivePreview.Proofs.Lowering.Emitted.Sequence
import LivePreview.Proofs.Lowering.Fault
import LivePreview.Proofs.Path.Containment
import LivePreview.Proofs.Path.Rebase
import LivePreview.Proofs.Tree.Deletion
import LivePreview.Proofs.Tree.Writing
import LivePreview.Proofs.Preview.References
import LivePreview.Proofs.Cli.Exclusion
import LivePreview.Proofs.Cli.Arguments
import LivePreview.Proofs.Tool.Lines
import LivePreview.Proofs.Project.Sharing
import LivePreview.Proofs.Workspace.Delivery
import LivePreview.Proofs.Preview.Policy
import LivePreview.Proofs.Module.Data
import LivePreview.Proofs.Preview.Splicing
import LivePreview.Proofs.Lowering.Filling
import LivePreview.Proofs.Preview.Mounting
