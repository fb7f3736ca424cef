import ShaderFront.Analysis.Analyzer
import ShaderFront.Analysis.Checking
import ShaderFront.Analysis.Finding
import ShaderFront.Analysis.Intrinsic
import ShaderFront.Analysis.Items
import ShaderFront.Analysis.Scope
import ShaderFront.Analysis.Typing
import ShaderFront.Binary64.Basic
import ShaderFront.Binary64.Notation
import ShaderFront.Binary64.Reading
import ShaderFront.Binary64.Shortest
import ShaderFront.Cache.Decoder
import ShaderFront.Cache.Library
import ShaderFront.Cache.Mixin
import ShaderFront.Cache.Number
import ShaderFront.Cache.Types
import ShaderFront.Diagnostic.Code
import ShaderFront.Diagnostic.Machine
import ShaderFront.Diagnostic.Pages
import ShaderFront.Diagnostic.Record
import ShaderFront.Diagnostic.Sink
import ShaderFront.Diagnostic.Terminal
import ShaderFront.Json.Basic
import ShaderFront.Json.Escape
import ShaderFront.Json.Reader
import ShaderFront.Main
import ShaderFront.Mixin.Bindings
import ShaderFront.Mixin.Context
import ShaderFront.Mixin.Error
import ShaderFront.Mixin.Expansion
import ShaderFront.Mixin.Keys
import ShaderFront.Mixin.Parameter
import ShaderFront.Mixin.Program
import ShaderFront.Mixin.Recipe
import ShaderFront.Mixin.Registry
import ShaderFront.Mixin.Script
import ShaderFront.Mixin.Tree
import ShaderFront.Proofs.Analysis.Completeness
import ShaderFront.Proofs.Analysis.Explained
import ShaderFront.Proofs.Analysis.KnownTypes
import ShaderFront.Proofs.Analysis.Run
import ShaderFront.Proofs.Analysis.Slots
import ShaderFront.Proofs.Analysis.Stripping
import ShaderFront.Proofs.Mixin.Additive
import ShaderFront.Proofs.Mixin.Append
import ShaderFront.Proofs.Mixin.Containment
import ShaderFront.Proofs.Mixin.Scripts
import ShaderFront.Proofs.Mixin.Simulation
import ShaderFront.Proofs.Mixin.Writer
import ShaderFront.Proofs.Syntax.Paren
import ShaderFront.Proofs.Syntax.Reach
import ShaderFront.Proofs.Syntax.Traversal
import ShaderFront.Proofs.Syntax.Unfold
import ShaderFront.Source.Files
import ShaderFront.Source.Span
import ShaderFront.Syntax.Arena
import ShaderFront.Syntax.Builder
import ShaderFront.Syntax.Inspect
import ShaderFront.Syntax.Node
import ShaderFront.Syntax.Operator
import ShaderFront.Syntax.Trace
import ShaderFront.Syntax.Transform
import ShaderFront.Syntax.Visit
import ShaderFront.Text.Blank
import ShaderFront.Text.Numeral
import ShaderFront.Text.Printable
import ShaderFront.Text.Quoted
import ShaderFront.Tool.Check
import ShaderFront.Tool.CommandLine
import ShaderFront.Tool.Config
import ShaderFront.Tool.Effects
import ShaderFront.Tool.Overrides
import ShaderFront.Types.Conversion
import ShaderFront.Types.ScalarKind
import ShaderFront.Types.Ty
import ShaderFront.Proofs.Syntax.Alongside
import ShaderFront.Proofs.Syntax.Recording
import ShaderFront.Proofs.Analysis.Alike
import ShaderFront.Proofs.Analysis.Passed
import ShaderFront.Proofs.Analysis.Comparison
import ShaderFront.Proofs.Analysis.Modes
import ShaderFront.Proofs.Analysis.Rerun
import ShaderFront.Proofs.Analysis.Visits
import ShaderFront.Proofs.Analysis.Cascade
import ShaderFront.Proofs.Analysis.OperandOrder
import ShaderFront.Proofs.Syntax.Nesting
import ShaderFront.Proofs.Analysis.Levels
import ShaderFront.Proofs.Analysis.Signatures
import ShaderFront.Proofs.Mixin.Brackets
import ShaderFront.Proofs.Mixin.Exchanges
import ShaderFront.Proofs.Mixin.Balance
import ShaderFront.Proofs.Mixin.History
import ShaderFront.Proofs.Mixin.Discarding
import ShaderFront.Proofs.Mixin.Stepwise
import ShaderFront.Proofs.Mixin.Deepening
import ShaderFront.Proofs.Syntax.Lockstep
import ShaderFront.Proofs.Analysis.Synonyms
import ShaderFront.Proofs.Analysis.SynonymRules
import ShaderFront.Proofs.Analysis.Abreast
import ShaderFront.Proofs.Analysis.SynonymItems
import ShaderFront.Proofs.Analysis.TypeNames
import ShaderFront.Proofs.Analysis.Transparency
import ShaderFront.Proofs.Analysis.Lookups
import ShaderFront.Proofs.Analysis.Checks
import ShaderFront.Proofs.Analysis.Assembly
import ShaderFront.Proofs.Analysis.Independence
import ShaderFront.Proofs.Syntax.OneOrder
import ShaderFront.Proofs.Analysis.Scoping
import ShaderFront.Proofs.Diagnostic.Report
import ShaderFront.Proofs.Types.StoreOrder
import ShaderFront.Proofs.Syntax.Frame
import ShaderFront.Proofs.Analysis.BoundTypes
import ShaderFront.Proofs.Types.Spelling
import ShaderFront.Proofs.Analysis.SpelledRules
import ShaderFront.Proofs.Analysis.RecordedTypes
import ShaderFront.Proofs.Analysis.SafeRuns
import ShaderFront.Proofs.Types.Combination
import ShaderFront.Proofs.Analysis.ArgumentOrder
import ShaderFront.Proofs.Types.Narrowing
import ShaderFront.Proofs.Types.BuiltinNames
import ShaderFront.Proofs.Types.Layers
import ShaderFront.Proofs.Syntax.Spans
import ShaderFront.Proofs.Analysis.Reports
import ShaderFront.Proofs.Analysis.Silencing
import ShaderFront.Proofs.Analysis.Placement
import ShaderFront.Proofs.Types.Origins
import ShaderFront.Proofs.Analysis.Binding
import ShaderFront.Proofs.Analysis.VoidNames
import ShaderFront.Proofs.Diagnostic.Reporting
import ShaderFront.Proofs.Tool.Overrides
import ShaderFront.Proofs.Mixin.Arguments
import ShaderFront.Proofs.Mixin.Composing
import ShaderFront.Proofs.Mixin.Sharing
import ShaderFront.Proofs.Mixin.ValueText
import ShaderFront.Proofs.Binary64.Reading
import ShaderFront.Proofs.Binary64.Texts
import ShaderFront.Proofs.Cache.Overrides
import ShaderFront.Proofs.Tool.Verbatim
import ShaderFront.Proofs.Diagnostic.Colors
import ShaderFront.Proofs.Tool.Effects
import ShaderFront.Proofs.Analysis.Swizzles
import ShaderFront.Proofs.Syntax.Building
