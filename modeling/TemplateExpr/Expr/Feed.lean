import TemplateExpr.Expr.Parse
import TemplateExpr.Token.Feed

namespace TemplateExpr.Feed

open Outcome (done fail)

theorem next_peek_shorter {f : Feed} {t : Token} (h : f.peek.2.next.1 = .ok t) :
    f.peek.2.next.2.remaining.length < f.remaining.length :=
  remaining_peek f ▸ next_shorter h

def items (expectItem : Bool) (f : Feed) : Outcome (List Expr) f :=
  f.taking fun t _ =>
    match t.kind, expectItem with
    | .squareClose, _ => done [] f.next.2
    | .value v, true => (items false f.next.2).map (.constant v :: ·)
    | .name, true => (items false f.next.2).map (.name t.text :: ·)
    | .comma, false => items true f.next.2
    | _, true => fail (.blame .listItem t) f.next.2
    | _, false => fail (.blame .listSeparator t) f.next.2
termination_by f.remaining.length
decreasing_by all_goals exact next_shorter ‹_›

abbrev Enclosed (f : Feed) : Type := { inner : List Token // inner.length ≤ f.remaining.length }

def enclosed (nested : Nat) (f : Feed) : Outcome (Enclosed f) f :=
  f.taking fun t h =>
    let take (nested : Nat) : Outcome (Enclosed f) f.next.2 :=
      (enclosed nested f.next.2).map fun inner =>
        ⟨t :: inner.1, Nat.succ_le_of_lt (Nat.lt_of_le_of_lt inner.2 (next_shorter h))⟩
    match t.kind, nested with
    | .blockEnd, _ => fail (.blame .unbalanced t) f.next.2
    | .roundOpen, nested => take (nested + 1)
    | .roundClose, 0 => done ⟨[], Nat.zero_le _⟩ f.next.2
    | .roundClose, nested + 1 => take nested
    | _, nested => take nested
termination_by f.remaining.length
decreasing_by all_goals exact next_shorter ‹_›

mutual

def expression (room min : Nat) (f : Feed) : Outcome Expr f :=
  (operand room f).andThen fun left rest _ => climb room min left rest
termination_by 2 * f.remaining.length + 1
decreasing_by all_goals omega

def climb (room min : Nat) (left : Expr) (f : Feed) : Outcome Expr f :=
  f.looking fun
    | none => done left f.peek.2
    | some t =>
      match t.operatorAbove? min with
      | none => done left f.peek.2
      | some op =>
        f.peek.2.taking fun _ _ =>
          (expression room op.precedence f.peek.2.next.2).andThen fun right rest _ =>
            climb room min (.binary op left right) rest
termination_by 2 * f.remaining.length
decreasing_by
  all_goals
    have := next_peek_shorter ‹_›
    omega

def operand (room : Nat) (f : Feed) : Outcome Expr f :=
  f.taking fun t _ =>
    match t.kind with
    | .value v => done (.constant v) f.next.2
    | .name => done (.name t.text) f.next.2
    | .squareOpen => (items true f.next.2).map .list
    | .roundOpen =>
      match room with
      | 0 => fail (.blame .tooDeep t) f.next.2
      | room + 1 =>
        (enclosed 0 f.next.2).andThen fun inner rest _ =>
          -- what stands between the brackets is fed anew
          let o := expression room 0 (ofTokens inner.1)
          match o.result, o.rest.peek.1 with
          | .error e, _ => fail e rest
          | .ok e, none => done e rest
          | .ok _, some t => fail (.blame .inParentheses t) rest
    | .operator op =>
      if op.isUnary then (operand room f.next.2).map (.unary op)
      else fail (.blame .unexpected t) f.next.2
    | _ => fail (.blame .unexpected t) f.next.2
termination_by 2 * f.remaining.length
decreasing_by
  · have := next_shorter ‹_›
    have := inner.2
    rw [remaining_ofTokens]
    omega
  · have := next_shorter ‹_›
    omega

end

def parse (f : Feed) : Outcome Expr f :=
  (expression maxNesting 0 f).andThen fun e rest _ =>
    rest.looking fun
      | none => done e rest.peek.2
      | some t =>
        if t.kind.isBlockEnd then done e rest.peek.2
        else fail (.blame .afterExpression t) rest.peek.2

end TemplateExpr.Feed
