namespace TemplateExpr

inductive Operator where
  | not | and | or
  | add | sub | mul | div | mod
  | eq | ne | gt | ge | lt | le
deriving DecidableEq

namespace Operator

def symbol : Operator → String
  | .not => "!"
  | .and => "&&"
  | .or => "||"
  | .add => "+"
  | .sub => "-"
  | .mul => "*"
  | .div => "/"
  | .mod => "%"
  | .eq => "=="
  | .ne => "!="
  | .gt => ">"
  | .ge => ">="
  | .lt => "<"
  | .le => "<="

/-- Of two operators the one of higher precedence takes the operand between them; of equals the
left one does. -/
def precedence : Operator → Nat
  | .or => 1
  | .and => 2
  | .eq | .ne | .gt | .ge | .lt | .le => 3
  | .add | .sub => 4
  | .mul | .div | .mod => 5
  | .not => 6

def isBinary : Operator → Bool
  | .not => false
  | _ => true

def isUnary : Operator → Bool
  | .not | .add | .sub => true
  | _ => false

theorem precedence_pos (op : Operator) : 0 < op.precedence := by
  cases op <;> decide

theorem precedence_le_six (op : Operator) : op.precedence ≤ 6 := by
  cases op <;> decide

theorem precedence_le_five {op : Operator} (h : op.isBinary = true) : op.precedence ≤ 5 := by
  cases op <;> first | decide | exact absurd h (by decide)

end Operator

end TemplateExpr
