import TemplateExpr.Expr.Basic
import TemplateExpr.Token.Stream

namespace TemplateExpr

def maxNesting : Nat := 64

def Token.operatorAbove? (min : Nat) (t : Token) : Option Operator :=
  match t.kind with
  | .operator op => if op.isBinary && decide (min < op.precedence) then some op else none
  | _ => none

namespace Parse

def items : Bool → (ts : List Token) → Reading (List Expr) ts
  | _, [] => .fail .endOfInput []
  | expectItem, t :: ts =>
    match t.kind, expectItem with
    | .squareClose, _ => (Reading.done [] ts).after t
    | .value v, true => ((items false ts).map (.constant v :: ·)).after t
    | .name, true => ((items false ts).map (.name t.text :: ·)).after t
    | .comma, false => (items true ts).after t
    | _, true => (Reading.fail (.blame .listItem t) ts).after t
    | _, false => (Reading.fail (.blame .listSeparator t) ts).after t

abbrev Enclosed (ts : List Token) : Type := { inner : List Token // inner.length ≤ ts.length }

/-- What stands before the closing bracket that matches, when `nested` brackets have been opened
on the way. The end of the block is never passed. -/
def enclosed : Nat → (ts : List Token) → Reading (Enclosed ts) ts
  | _, [] => .fail .endOfInput []
  | nested, t :: ts =>
    let take (nested : Nat) : Reading (Enclosed (t :: ts)) (t :: ts) :=
      ((enclosed nested ts).map fun inner => ⟨t :: inner.1, Nat.succ_le_succ inner.2⟩).after t
    match t.kind, nested with
    | .blockEnd, _ => (Reading.fail (.blame .unbalanced t) ts).after t
    | .roundOpen, nested => take (nested + 1)
    | .roundClose, 0 => (Reading.done ⟨[], Nat.zero_le _⟩ ts).after t
    | .roundClose, nested + 1 => take nested
    | _, nested => take nested

mutual

/-- An operand and the operators after it that bind more tightly than `min`, with `room` for
that many levels of brackets. -/
def expression (room min : Nat) (ts : List Token) : Reading Expr ts :=
  (operand room ts).andThen fun left rest _ => climb room min left rest
termination_by 2 * ts.length + 1

def climb (room min : Nat) (left : Expr) : (ts : List Token) → Reading Expr ts
  | [] => .done left []
  | t :: ts =>
    match t.operatorAbove? min with
    | none => .done left (t :: ts)
    | some op =>
      ((expression room op.precedence ts).andThen fun right rest _ =>
        climb room min (.binary op left right) rest).after t
termination_by ts => 2 * ts.length

/-- A constant, a name, a list or a bracketed expression, behind any number of operators that are
written in front. -/
def operand (room : Nat) : (ts : List Token) → Reading Expr ts
  | [] => .fail .endOfInput []
  | t :: ts =>
    match t.kind with
    | .value v => (Reading.done (.constant v) ts).after t
    | .name => (Reading.done (.name t.text) ts).after t
    | .squareOpen => ((items true ts).map .list).after t
    | .roundOpen =>
      match room with
      | 0 => (Reading.fail (.blame .tooDeep t) ts).after t
      | room + 1 =>
        ((enclosed 0 ts).andThen fun inner rest _ =>
          let r := expression room 0 inner
          match r.result, r.rest with
          | .ok e, [] => .done e rest
          | .ok _, t :: _ => .fail (.blame .inParentheses t) rest
          | .error e, _ => .fail e rest).after t
    | .operator op =>
      if op.isUnary then ((operand room ts).map (.unary op)).after t
      else (Reading.fail (.blame .unexpected t) ts).after t
    | _ => (Reading.fail (.blame .unexpected t) ts).after t
termination_by ts => 2 * ts.length

end

end Parse

def parse (ts : List Token) : Reading Expr ts :=
  (Parse.expression maxNesting 0 ts).andThen fun e rest _ =>
    match rest with
    | [] => .done e []
    | t :: rest =>
      if t.kind.isBlockEnd then .done e (t :: rest)
      else .fail (.blame .afterExpression t) (t :: rest)

def TokenStream.parse (s : TokenStream) : Except SyntaxError Expr × TokenStream :=
  let r := TemplateExpr.parse s.remaining
  (r.result, ⟨r.rest⟩)

def parseBlock : List Token → Except SyntaxError Expr
  | [] => .error .endOfInput
  | t :: ts =>
    if t.kind.isBlockStart then
      let r := parse ts
      match r.result, r.rest with
      | .error e, _ => .error e
      | .ok _, [] => .error .endOfInput
      | .ok e, [_] => .ok e
      | .ok _, _ :: t :: _ => .error (.blame .afterBlockEnd t)
    else .error (.blame .noBlockStart t)

end TemplateExpr
