import TemplateExpr.Limit
import TemplateExpr.Operator
import TemplateExpr.Value.Basic

namespace TemplateExpr

inductive Fault where
  | undefinedVariable (name : String) (known : List String)
  | noConversion (typeName : String)
  | incomparable (left right : Kind)
  | badOperands (op : Operator) (left right : Kind)
  | notANumber (op : Operator) (operand : Kind)
  | outOfRange (n : Int)
  | divisionByZero
  | moduloByZero
  | noBinaryForm (op : Operator)
  | noUnaryForm (op : Operator)
  | reservedName (name : String)
  | limit (l : Limit)
deriving DecidableEq

namespace Fault

def message : Fault → String
  | .undefinedVariable name known =>
    "Undefined variable '" ++ name ++ "'" ++
      if known.isEmpty then ""
      else "\nAvailable variables: " ++ ", ".intercalate (known.mergeSort (· ≤ ·))
  | .noConversion typeName => "Cannot convert " ++ typeName ++ " to an expression value"
  | .incomparable left right => "Cannot compare " ++ left.name ++ " with " ++ right.name
  | .badOperands op left right =>
    "Operator '" ++ op.symbol ++ "' is not defined for " ++ left.name ++ " and " ++ right.name
  | .notANumber op operand =>
    "Unary '" ++ op.symbol ++ "' requires a number, got " ++ operand.name
  | .outOfRange n => "Integer overflow: " ++ n.repr ++ " does not fit in 64 bits"
  | .divisionByZero => "Division by zero"
  | .moduloByZero => "Modulo by zero"
  | .noBinaryForm op => "'" ++ op.symbol ++ "' is not a binary operator"
  | .noUnaryForm op => "'" ++ op.symbol ++ "' is not a unary operator"
  | .reservedName name =>
    "Context.with_variables() got multiple values for argument '" ++ name ++ "'"
  | .limit l => l.message

/-- Whether a fault is one of the expression and not of the way it is worked with: reaching a limit
or binding a reserved name is no matter of any expression. -/
def isOfExpression : Fault → Bool
  | .reservedName _ | .limit _ => false
  | _ => true

def raised? : Fault → Option Raised
  | .reservedName name => some ⟨"TypeError", (reservedName name).message⟩
  | .limit l => some l.raised
  | _ => none

end Fault

end TemplateExpr
