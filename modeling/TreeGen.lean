import TreeGen.Classification
import TreeGen.Command
import TreeGen.Command.Arguments
import TreeGen.Command.Run
import TreeGen.Config
import TreeGen.Delivery
import TreeGen.Delivery.ToFile
import TreeGen.Document
import TreeGen.Files
import TreeGen.Files.Tree
import TreeGen.InputError
import TreeGen.Json
import TreeGen.Json.Fault
import TreeGen.Json.Lexeme
import TreeGen.Json.Nesting
import TreeGen.Json.Numeral
import TreeGen.Json.Printer
import TreeGen.Json.Quoted
import TreeGen.Json.Reader
import TreeGen.Json.Reading
import TreeGen.LocatedConfig
import TreeGen.Main
import TreeGen.Moment
import TreeGen.Node
import TreeGen.Node.Measure
import TreeGen.Node.Printer
import TreeGen.Notice
import TreeGen.Path
import TreeGen.Proofs.Command.Run
import TreeGen.Proofs.Config
import TreeGen.Proofs.Delivery
import TreeGen.Proofs.Document
import TreeGen.Proofs.Document.Concatenation
import TreeGen.Proofs.Files.Access
import TreeGen.Proofs.Files.Disk
import TreeGen.Proofs.Files.Execution
import TreeGen.Proofs.Files.Results
import TreeGen.Proofs.Files.Tree
import TreeGen.Proofs.Json.Lexeme
import TreeGen.Proofs.Json.Nesting.Characters
import TreeGen.Proofs.Json.Nesting.Exactness
import TreeGen.Proofs.Json.Nesting.Guard
import TreeGen.Proofs.Json.Nesting.Peak
import TreeGen.Proofs.Json.Nesting.Tokens
import TreeGen.Proofs.Json.Printer
import TreeGen.Proofs.Json.Quoted
import TreeGen.Proofs.Json.Reader
import TreeGen.Proofs.Labels
import TreeGen.Proofs.Node.Measure
import TreeGen.Proofs.Node.Preorder
import TreeGen.Proofs.Node.Printer
import TreeGen.Proofs.Node.Walk
import TreeGen.Proofs.Table
import TreeGen.Proofs.Table.History
import TreeGen.Proofs.Template.DepthLimit
import TreeGen.Proofs.Template.Expansion
import TreeGen.Proofs.Template.Filling
import TreeGen.Proofs.Template.Library
import TreeGen.Proofs.Template.Loading
import TreeGen.Proofs.Template.Memory
import TreeGen.Proofs.Template.Pruning
import TreeGen.Proofs.Template.Registry
import TreeGen.Proofs.Template.Skipped
import TreeGen.Proofs.Template.Subtree
import TreeGen.Proofs.Template.Visited
import TreeGen.Proofs.Text.Span
import TreeGen.Proofs.Text.Utf8
import TreeGen.Proofs.TypeTree.Acceptance
import TreeGen.Proofs.TypeTree.Faults
import TreeGen.Proofs.TypeTree.Field
import TreeGen.Proofs.TypeTree.LargerLimit
import TreeGen.Proofs.TypeTree.Nodes
import TreeGen.Proofs.TypeTree.Places
import TreeGen.Proofs.TypeTree.Reading
import TreeGen.Proofs.TypeTree.Rewording
import TreeGen.Proofs.TypeTree.RoundTrip
import TreeGen.Proofs.TypeTree.Spelling
import TreeGen.Proofs.TypeTree.Stated
import TreeGen.Proofs.TypeTree.Threshold
import TreeGen.Proofs.Word.Counter
import TreeGen.Proofs.Word.Expansion
import TreeGen.Proofs.Word.Reading
import TreeGen.Proofs.Word.Scan
import TreeGen.Proofs.Workspace.Agreement
import TreeGen.Proofs.Workspace.Generation
import TreeGen.Proofs.Workspace.Passes
import TreeGen.Proofs.Workspace.Reading
import TreeGen.Summary
import TreeGen.Table
import TreeGen.Template.Expander
import TreeGen.Template.Filling
import TreeGen.Template.Library
import TreeGen.Template.Registry
import TreeGen.Text.Character
import TreeGen.Text.Place
import TreeGen.Toml
import TreeGen.Toml.Document
import TreeGen.Toml.Quoted
import TreeGen.Toml.Reading
import TreeGen.Toml.Scalar
import TreeGen.TreeFile
import TreeGen.TypeTree.Field
import TreeGen.TypeTree.Nodes
import TreeGen.TypeTree.Reading
import TreeGen.Workspace
import TreeGen.Workspace.Passes
