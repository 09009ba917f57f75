import Templating.Ascending
import Templating.Command.Arguments
import Templating.Command.Check
import Templating.Command.Elapsed
import Templating.Command.Render
import Templating.Command.Report
import Templating.Command.Run
import Templating.Command.Tree
import Templating.Command.Words
import Templating.Command.Workers
import Templating.Config.Basic
import Templating.Config.Search
import Templating.Consumed
import Templating.Context
import Templating.Entries
import Templating.Expr.Basic
import Templating.Expr.Document
import Templating.Expr.Eval
import Templating.Expr.Parser
import Templating.Expr.Token
import Templating.FileTree
import Templating.Host.Assets
import Templating.Host.Builtins
import Templating.Host.Function
import Templating.Host.Session
import Templating.Host.ViewFiles
import Templating.Host.Views
import Templating.Json.Basic
import Templating.Json.Reader
import Templating.Main
import Templating.Number.Basic
import Templating.Number.Binary64
import Templating.Number.Decimal
import Templating.Number.Grouped
import Templating.Number.Power
import Templating.Number.Shortest
import Templating.Path
import Templating.Proofs.Command.CheckOrder
import Templating.Proofs.Command.Workers
import Templating.Proofs.Expr.ArgumentList
import Templating.Proofs.Expr.Balance
import Templating.Proofs.Expr.Complete
import Templating.Proofs.Expr.Exact
import Templating.Proofs.Expr.Fitting
import Templating.Proofs.Expr.Grammar
import Templating.Proofs.Expr.Lexing
import Templating.Proofs.Expr.Parenthesized
import Templating.Proofs.Expr.Printing
import Templating.Proofs.Expr.Sound
import Templating.Proofs.Expr.Spelling
import Templating.Proofs.Expr.StaticNames
import Templating.Proofs.Host.NumberFormat
import Templating.Proofs.Host.Tags
import Templating.Proofs.Host.ViewFiles
import Templating.Proofs.Number.FixedPoint
import Templating.Proofs.Number.Rounding
import Templating.Proofs.Number.Significand
import Templating.Proofs.Path
import Templating.Proofs.Render.Agreement
import Templating.Proofs.Render.BindingOrder
import Templating.Proofs.Render.Bindings
import Templating.Proofs.Render.Cache
import Templating.Proofs.Render.Course
import Templating.Proofs.Render.Cycles
import Templating.Proofs.Render.DepthLimit
import Templating.Proofs.Render.Failures
import Templating.Proofs.Render.GuardStack
import Templating.Proofs.Render.Layouts
import Templating.Proofs.Render.Loops
import Templating.Proofs.Render.MissingInclude
import Templating.Proofs.Render.Run
import Templating.Proofs.Render.SectionNames
import Templating.Proofs.Render.Sections
import Templating.Proofs.Render.Strictness
import Templating.Proofs.Render.Verbatim
import Templating.Proofs.Template.Arguments
import Templating.Proofs.Template.Builder
import Templating.Proofs.Template.Concatenation
import Templating.Proofs.Template.Condition
import Templating.Proofs.Template.LineBoundary
import Templating.Proofs.Template.LineColumn
import Templating.Proofs.Template.Matching
import Templating.Proofs.Template.Nesting
import Templating.Proofs.Template.Partition
import Templating.Proofs.Template.Piece
import Templating.Proofs.Template.Placement
import Templating.Proofs.Template.Places
import Templating.Proofs.Template.QuotedRuns
import Templating.Proofs.Template.Recovery
import Templating.Proofs.Template.Relocation
import Templating.Proofs.Template.Rows
import Templating.Proofs.Template.Scan
import Templating.Proofs.Template.SectionPage
import Templating.Proofs.Template.Splice
import Templating.Proofs.Template.Unplaced
import Templating.Proofs.Template.Verbatim
import Templating.Proofs.Template.Walk
import Templating.Proofs.Text.ByteOrder
import Templating.Proofs.Text.Entities
import Templating.Proofs.Value.IntegerComparison
import Templating.Proofs.Value.IntegerKeys
import Templating.Proofs.Value.LooseEquality
import Templating.Proofs.Value.StrictEquality
import Templating.Render.Engine
import Templating.Render.Error
import Templating.Render.History
import Templating.Render.Machine
import Templating.Render.Page
import Templating.Render.State
import Templating.Render.Tree
import Templating.Template.Directive
import Templating.Template.Document
import Templating.Template.Error
import Templating.Template.Markers
import Templating.Template.Node
import Templating.Template.Parser
import Templating.Template.Position
import Templating.Template.Scanner
import Templating.Template.Token
import Templating.Text.Blank
import Templating.Text.Bytes
import Templating.Text.Case
import Templating.Text.CaseTable
import Templating.Text.Markup
import Templating.Text.Quoted
import Templating.Text.Ranges
import Templating.Text.Shown
import Templating.Text.UnseenTable
import Templating.Text.Utf8
import Templating.Value.Basic
import Templating.Value.Compare
import Templating.Value.Lookup
import Templating.Value.Output
