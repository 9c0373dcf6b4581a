import ChoiceScript.Main
import ChoiceScript.Proofs.Document.LineTable
import ChoiceScript.Proofs.Document.Quotation
import ChoiceScript.Proofs.Diagnostic.Rendering
import ChoiceScript.Proofs.Expression.Tokens
import ChoiceScript.Proofs.Expression.Tiling
import ChoiceScript.Proofs.Multireplace
import ChoiceScript.Proofs.Openings
import ChoiceScript.Proofs.Parser.Logic
import ChoiceScript.Proofs.Parser.Effect
import ChoiceScript.Proofs.Parser.Truth
import ChoiceScript.Proofs.Parser.Inline
import ChoiceScript.Proofs.Expression.Shape
import ChoiceScript.Proofs.Parser.Command
import ChoiceScript.Proofs.Parser.Document
import ChoiceScript.Proofs.Index.Entries
import ChoiceScript.Proofs.Index.Summary
import ChoiceScript.Proofs.Index.Reading
import ChoiceScript.Proofs.Index.Fidelity
import ChoiceScript.Proofs.Workspace.Coherence
import ChoiceScript.Proofs.Uri.Parts
import ChoiceScript.Proofs.Uri.Normal
import ChoiceScript.Proofs.Uri.Sibling
import ChoiceScript.Proofs.Rule.Passing
import ChoiceScript.Proofs.Workspace.Checking
import ChoiceScript.Proofs.Diagnostic.Sorting
import ChoiceScript.Proofs.Rule.Dependence
import ChoiceScript.Proofs.Workspace.Staleness
import ChoiceScript.Proofs.Mention.Basic
import ChoiceScript.Proofs.Mention.Layout
import ChoiceScript.Proofs.Mention.Inline
import ChoiceScript.Proofs.Mention.Command
import ChoiceScript.Proofs.Mention.Document
import ChoiceScript.Proofs.Parser.Progress
import ChoiceScript.Proofs.Parser.Closing
import ChoiceScript.Proofs.Workspace.History
import ChoiceScript.Proofs.Workspace.Failure
import ChoiceScript.Proofs.Workspace.Independence
import ChoiceScript.Proofs.Nesting.Basic
import ChoiceScript.Proofs.Nesting.Inline
import ChoiceScript.Proofs.Nesting.Command
import ChoiceScript.Proofs.Nesting.Document
import ChoiceScript.Proofs.CommandLine
import ChoiceScript.Proofs.Construct
import ChoiceScript.Proofs.Discovery
import ChoiceScript.Proofs.Index.Contents
import ChoiceScript.Proofs.Rule.VariableUse
import ChoiceScript.Proofs.Rule.Kinds
import ChoiceScript.Proofs.Workspace.Undefined
import ChoiceScript.Proofs.Document.Order
import ChoiceScript.Proofs.Index.Subroutine
import ChoiceScript.Proofs.Signpost.Basic
import ChoiceScript.Proofs.Signpost.Document
import ChoiceScript.Proofs.Signpost.Subroutine
import ChoiceScript.Proofs.Rule.Jumps
import ChoiceScript.Proofs.Rule.EarlyUse
import ChoiceScript.Proofs.Workspace.Jumps
import ChoiceScript.Proofs.Reassembly
import ChoiceScript.Proofs.Expression.Calls
import ChoiceScript.Proofs.Expression.Grammar
import ChoiceScript.Proofs.Parser.MissingValue
import ChoiceScript.Proofs.Expression.Slices
import ChoiceScript.Proofs.Expression.Relexing
import ChoiceScript.Proofs.Expression.Combining
import ChoiceScript.Proofs.Rule.LineCommand
import ChoiceScript.Proofs.Rule.Punctuation
import ChoiceScript.Proofs.Parser.SetErrors
import ChoiceScript.Proofs.Diagnostic.Canonical
import ChoiceScript.Proofs.Rule.Placement
import ChoiceScript.Proofs.Uri.NormalPath
import ChoiceScript.Proofs.Text.Lowercase
import ChoiceScript.Proofs.Uri.Authority
import ChoiceScript.Proofs.Uri.Rereading
import ChoiceScript.Proofs.Uri.SceneFile
import ChoiceScript.Proofs.Uri.Steady
import ChoiceScript.Proofs.Uri.FileAddress
import ChoiceScript.Proofs.Workspace.Returned
import ChoiceScript.Proofs.Report
import ChoiceScript.Proofs.Text.Delimiter
import ChoiceScript.Proofs.Parser.NestedMultireplace
import ChoiceScript.Proofs.Text.Lines
import ChoiceScript.Proofs.Parser.SceneList
import ChoiceScript.Proofs.StatChart
import ChoiceScript.Proofs.Parser.InlineReports
import ChoiceScript.Proofs.Parser.StatChart
import ChoiceScript.Proofs.Text.LineBounds
import ChoiceScript.Proofs.Text.LineReading
import ChoiceScript.Proofs.Text.Indentation
