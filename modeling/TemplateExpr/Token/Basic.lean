import TemplateExpr.Operator
import TemplateExpr.Text.Position
import TemplateExpr.Value.Basic

namespace TemplateExpr

inductive Token.Kind where
  | blockStart
  | blockEnd
  | value (v : Value)
  | name
  | operator (op : Operator)
  | roundOpen
  | roundClose
  | squareOpen
  | squareClose
  | comma

structure Token where
  kind : Token.Kind
  text : String
  position : Position

namespace Token

def Kind.label : Kind → String
  | .blockStart => "block_start"
  | .blockEnd => "block_end"
  | .value _ => "value"
  | .name => "variable"
  | .operator .not => "not"
  | .operator .and => "and"
  | .operator .or => "or"
  | .operator .add => "plus"
  | .operator .sub => "minus"
  | .operator .mul => "star"
  | .operator .div => "slash"
  | .operator .mod => "percent"
  | .operator .eq => "equals"
  | .operator .ne => "not_equals"
  | .operator .gt => "greater_than"
  | .operator .ge => "greater_equal_than"
  | .operator .lt => "less_than"
  | .operator .le => "less_equal_than"
  | .roundOpen => "round_bracket_start"
  | .roundClose => "round_bracket_end"
  | .squareOpen => "square_bracket_start"
  | .squareClose => "square_bracket_end"
  | .comma => "comma"

def Kind.isBlockStart : Kind → Bool
  | .blockStart => true
  | _ => false

def Kind.isBlockEnd : Kind → Bool
  | .blockEnd => true
  | _ => false

theorem Kind.isBlockStart_iff {k : Kind} : k.isBlockStart = true ↔ k = .blockStart := by
  cases k <;> simp [isBlockStart]

theorem Kind.isBlockEnd_iff {k : Kind} : k.isBlockEnd = true ↔ k = .blockEnd := by
  cases k <;> simp [isBlockEnd]

end Token

end TemplateExpr
