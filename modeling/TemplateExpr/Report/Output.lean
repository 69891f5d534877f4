import TemplateExpr.Json

namespace TemplateExpr

inductive OutputFormat where
  | text
  | json
deriving DecidableEq

/-- Text is written as in an expression; JSON names the kind beside the value. -/
def formatValue (v : Value) : OutputFormat → String
  | .text => v.text
  | .json => Json.pretty (.object [("kind", .string v.kind.name), ("value", Json.ofValue v)])

end TemplateExpr
