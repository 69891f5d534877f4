import TemplateExpr.Value.Basic
import TemplateExpr.Operator

namespace TemplateExpr

inductive Expr where
  | constant (v : Value)
  | name (x : String)
  | unary (op : Operator) (operand : Expr)
  | binary (op : Operator) (left right : Expr)
  | list (items : List Expr)

namespace Expr

def children : Expr → List Expr
  | .constant _ | .name _ => []
  | .unary _ operand => [operand]
  | .binary _ left right => [left, right]
  | .list items => items

mutual

def size : Expr → Nat
  | .constant _ | .name _ => 1
  | .unary _ operand => size operand + 1
  | .binary _ left right => size left + size right + 1
  | .list items => totalSize items + 1

def totalSize : List Expr → Nat
  | [] => 0
  | e :: es => size e + totalSize es

end

theorem size_pos (e : Expr) : 0 < e.size := by
  cases e <;> simp [size]

end Expr

end TemplateExpr
