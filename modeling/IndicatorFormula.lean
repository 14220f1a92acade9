import IndicatorFormula.Calculation
import IndicatorFormula.Calendar.Date
import IndicatorFormula.Calendar.Period
import IndicatorFormula.Catalog.Basic
import IndicatorFormula.Catalog.Item
import IndicatorFormula.Catalog.Object
import IndicatorFormula.Expression.Builtin
import IndicatorFormula.Expression.Defect
import IndicatorFormula.Expression.Evaluation
import IndicatorFormula.Expression.Lexer
import IndicatorFormula.Expression.Parser
import IndicatorFormula.Expression.Token
import IndicatorFormula.Expression.Tree
import IndicatorFormula.Failure
import IndicatorFormula.Formula.Call
import IndicatorFormula.Formula.Error
import IndicatorFormula.Formula.Reference
import IndicatorFormula.Indicator.Value
import IndicatorFormula.Journal
import IndicatorFormula.Number.Basic
import IndicatorFormula.Number.Decimal
import IndicatorFormula.Number.Double
import IndicatorFormula.Number.Elementary
import IndicatorFormula.Proofs.Calculation
import IndicatorFormula.Proofs.Catalog.Existence
import IndicatorFormula.Proofs.Catalog.Identifier
import IndicatorFormula.Proofs.Catalog.Operands
import IndicatorFormula.Proofs.Catalog.Resolution
import IndicatorFormula.Proofs.Expression.Alternation
import IndicatorFormula.Proofs.Expression.Builtin
import IndicatorFormula.Proofs.Expression.Enclosure
import IndicatorFormula.Proofs.Expression.Exchange
import IndicatorFormula.Proofs.Expression.Faults
import IndicatorFormula.Proofs.Expression.Grammar
import IndicatorFormula.Proofs.Expression.Grouping
import IndicatorFormula.Proofs.Expression.Lexemes
import IndicatorFormula.Proofs.Expression.Literal
import IndicatorFormula.Proofs.Expression.Parsing
import IndicatorFormula.Proofs.Expression.Places
import IndicatorFormula.Proofs.Expression.Refusal
import IndicatorFormula.Proofs.Expression.Rendering
import IndicatorFormula.Proofs.Expression.Separation
import IndicatorFormula.Proofs.Expression.Shape
import IndicatorFormula.Proofs.Expression.Spacing
import IndicatorFormula.Proofs.Expression.Step
import IndicatorFormula.Proofs.Expression.Tiling
import IndicatorFormula.Proofs.Expression.Vocabulary
import IndicatorFormula.Proofs.Expression.WellFormedness
import IndicatorFormula.Proofs.Formula.Balance
import IndicatorFormula.Proofs.Formula.Braces
import IndicatorFormula.Proofs.Formula.Calls
import IndicatorFormula.Proofs.Formula.Capitals
import IndicatorFormula.Proofs.Formula.Cutting
import IndicatorFormula.Proofs.Formula.Depth
import IndicatorFormula.Proofs.Formula.Head
import IndicatorFormula.Proofs.Formula.Locality
import IndicatorFormula.Proofs.Formula.Placeholder
import IndicatorFormula.Proofs.Formula.Recasing
import IndicatorFormula.Proofs.Formula.Reference
import IndicatorFormula.Proofs.Formula.Scanning
import IndicatorFormula.Proofs.Formula.Sealing
import IndicatorFormula.Proofs.Formula.Search
import IndicatorFormula.Proofs.Formula.Segment
import IndicatorFormula.Proofs.Formula.Sites
import IndicatorFormula.Proofs.Indicator.Value
import IndicatorFormula.Proofs.Number.Arithmetic
import IndicatorFormula.Proofs.Number.Digits
import IndicatorFormula.Proofs.Number.Nearest
import IndicatorFormula.Proofs.Number.Precision
import IndicatorFormula.Proofs.Number.Range
import IndicatorFormula.Proofs.Number.ReadBack
import IndicatorFormula.Proofs.Number.Rounding
import IndicatorFormula.Proofs.Number.Shortest
import IndicatorFormula.Proofs.Outcome
import IndicatorFormula.Proofs.Sample.Ascending
import IndicatorFormula.Proofs.Sample.Percentile
import IndicatorFormula.Proofs.Sample.Sort
import IndicatorFormula.Proofs.Store.Refreshing
import IndicatorFormula.Proofs.Substitution.Agreement
import IndicatorFormula.Proofs.Substitution.Bareness
import IndicatorFormula.Proofs.Substitution.Binding
import IndicatorFormula.Proofs.Substitution.Borders
import IndicatorFormula.Proofs.Substitution.Brackets
import IndicatorFormula.Proofs.Substitution.Canonical
import IndicatorFormula.Proofs.Substitution.Capitals
import IndicatorFormula.Proofs.Substitution.Casing
import IndicatorFormula.Proofs.Substitution.Clearing
import IndicatorFormula.Proofs.Substitution.Counting
import IndicatorFormula.Proofs.Substitution.Coverage
import IndicatorFormula.Proofs.Substitution.Decision
import IndicatorFormula.Proofs.Substitution.Explosion
import IndicatorFormula.Proofs.Substitution.Extraction
import IndicatorFormula.Proofs.Substitution.Figures
import IndicatorFormula.Proofs.Substitution.Filling
import IndicatorFormula.Proofs.Substitution.ItemValues
import IndicatorFormula.Proofs.Substitution.Leniency
import IndicatorFormula.Proofs.Substitution.Literals
import IndicatorFormula.Proofs.Substitution.Names
import IndicatorFormula.Proofs.Substitution.Operands
import IndicatorFormula.Proofs.Substitution.Passes
import IndicatorFormula.Proofs.Substitution.Places
import IndicatorFormula.Proofs.Substitution.Refilling
import IndicatorFormula.Proofs.Substitution.Removal
import IndicatorFormula.Proofs.Substitution.SampleKeys
import IndicatorFormula.Proofs.Substitution.SampleTrees
import IndicatorFormula.Proofs.Substitution.Samples
import IndicatorFormula.Proofs.Substitution.Seams
import IndicatorFormula.Proofs.Substitution.Skipping
import IndicatorFormula.Proofs.Substitution.Soundness
import IndicatorFormula.Proofs.Substitution.Source
import IndicatorFormula.Proofs.Substitution.Splicing
import IndicatorFormula.Proofs.Substitution.Supply
import IndicatorFormula.Proofs.Substitution.Unclosed
import IndicatorFormula.Proofs.Substitution.Validation
import IndicatorFormula.Proofs.Substitution.Verdicts
import IndicatorFormula.Proofs.Text.Character
import IndicatorFormula.Sample.Gallop
import IndicatorFormula.Sample.Merge
import IndicatorFormula.Sample.Moments
import IndicatorFormula.Sample.Order
import IndicatorFormula.Sample.Sort
import IndicatorFormula.Store.Basic
import IndicatorFormula.Store.Change
import IndicatorFormula.Store.Field
import IndicatorFormula.Store.Form
import IndicatorFormula.Store.Task
import IndicatorFormula.Strategy
import IndicatorFormula.Substitution.Description
import IndicatorFormula.Substitution.Explosion
import IndicatorFormula.Substitution.Extraction
import IndicatorFormula.Substitution.Filling
import IndicatorFormula.Substitution.Mode
import IndicatorFormula.Substitution.Pass
import IndicatorFormula.Substitution.Supply
import IndicatorFormula.Substitution.Validation
import IndicatorFormula.Text.Basic
import IndicatorFormula.Text.Blank
import IndicatorFormula.Text.Capital
import IndicatorFormula.Text.Digit
import IndicatorFormula.Text.Letter
import IndicatorFormula.Text.Line
import IndicatorFormula.Text.Quoted
import IndicatorFormula.Text.Ranges
import IndicatorFormula.Text.Unprintable
import IndicatorFormula.Text.Word
import IndicatorFormula.Valuation
import IndicatorFormula.Value
