import TemplateExpr.Cache.Shared
import TemplateExpr.Main
import TemplateExpr.Proofs.Grammar.Acceptance
import TemplateExpr.Proofs.Grammar.Blame
import TemplateExpr.Proofs.Grammar.Cursor
import TemplateExpr.Proofs.Grammar.Printing
import TemplateExpr.Proofs.Grammar.Recursion
import TemplateExpr.Proofs.Evaluation.Dependence
import TemplateExpr.Proofs.Evaluation.Faults
import TemplateExpr.Proofs.Evaluation.Operands
import TemplateExpr.Proofs.Evaluation.PostOrder
import TemplateExpr.Proofs.Evaluation.Range
import TemplateExpr.Proofs.Evaluation.Refusals
import TemplateExpr.Proofs.Caching.Inclusion
import TemplateExpr.Proofs.Caching.Lifecycle
import TemplateExpr.Proofs.Caching.Recency
import TemplateExpr.Proofs.Caching.Transparency
import TemplateExpr.Proofs.Composition
import TemplateExpr.Proofs.Lexing.Place
import TemplateExpr.Proofs.Lexing.Quoting
import TemplateExpr.Proofs.Lexing.Tiling
import TemplateExpr.Proofs.Markers
import TemplateExpr.Proofs.Ordering.Equality
import TemplateExpr.Proofs.Ordering.NotANumber
import TemplateExpr.Proofs.Ordering.Order
import TemplateExpr.Proofs.Settings.Sources
import TemplateExpr.Proofs.Staging
import TemplateExpr.Proofs.Lexing.Digits
import TemplateExpr.Proofs.Output.Text
import TemplateExpr.Proofs.Numeric.FloatText
import TemplateExpr.Proofs.Output.Escaping
import TemplateExpr.Proofs.Output.Json
import TemplateExpr.Proofs.Output.Document
import TemplateExpr.Proofs.Output.WellFormed
import TemplateExpr.Proofs.Outline.Labels
import TemplateExpr.Proofs.Supply.Conversion
import TemplateExpr.Proofs.Supply.Settling
import TemplateExpr.Proofs.Supply.Contexts
