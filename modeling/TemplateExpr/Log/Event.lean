import TemplateExpr.Value.Datum

namespace TemplateExpr.Log

inductive Level where
  | debug
  | info
  | warning
  | error
deriving DecidableEq

namespace Level

def name : Level → String
  | .debug => "debug"
  | .info => "info"
  | .warning => "warning"
  | .error => "error"

/-- How grave an event is; a threshold lets through what is at least as grave. -/
def number : Level → Nat
  | .debug => 10
  | .info => 20
  | .warning => 30
  | .error => 40

end Level

structure Event where
  level : Level
  name : String
  fields : List (String × Datum)

end TemplateExpr.Log
