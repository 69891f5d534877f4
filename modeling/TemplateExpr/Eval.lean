import TemplateExpr.Context
import TemplateExpr.Expr.Basic
import TemplateExpr.Operator.Apply

namespace TemplateExpr

def Context.value (c : Context) (name : String) : Except Fault Value :=
  match c.get? name with
  | some v => .ok v
  | none => .error (.undefinedVariable name c.names)

namespace Expr

mutual

def eval (c : Context) : Expr → Except Fault Value
  | .constant v => .ok v
  | .name x => c.value x
  | .unary op operand =>
    match eval c operand with
    | .error fault => .error fault
    | .ok a => op.applyUnary a
  | .binary op left right =>
    match eval c left with
    | .error fault => .error fault
    | .ok a =>
      match eval c right with
      | .error fault => .error fault
      | .ok b => op.applyBinary a b
  | .list items => (evalItems c items).map .list

def evalItems (c : Context) : List Expr → Except Fault (List Value)
  | [] => .ok []
  | e :: es =>
    match eval c e with
    | .error fault => .error fault
    | .ok v => (evalItems c es).map (v :: ·)

end

theorem evalItems_length {c : Context} {es : List Expr} {vs : List Value}
    (h : evalItems c es = .ok vs) : vs.length = es.length := by
  induction es generalizing vs with
  | nil => simp_all [evalItems]
  | cons e es ih =>
      rw [evalItems] at h
      cases he : e.eval c with
      | error fault => simp [he] at h
      | ok v =>
          cases hs : evalItems c es with
          | error fault => simp [he, hs, Except.map] at h
          | ok us => simp only [he, hs, Except.map, Except.ok.injEq] at h; simp [← h, ih hs]

end Expr

namespace Machine

/-- What is still to be done: a tree to evaluate, or an operator or list bracket whose operands
are on the stack of results. -/
inductive Task where
  | visit (e : Expr)
  | applyUnary (op : Operator)
  | applyBinary (op : Operator)
  | gather (count : Nat)

/-- Why the machine stops without a result: a fault, or the wrong count of results on the stack. -/
inductive Halt where
  | fault (f : Fault)
  | unbalanced

def Task.weight : Task → Nat
  | .visit e => 2 * e.size
  | _ => 1

def weight : List Task → Nat
  | [] => 0
  | t :: ts => t.weight + weight ts

def pop? (count : Nat) (results : List Value) : Option (List Value × List Value) :=
  if count ≤ results.length then some ((results.take count).reverse, results.drop count) else none

def visits (es : List Expr) : List Task := es.map .visit

theorem visits_cons (e : Expr) (es : List Expr) : visits (e :: es) = .visit e :: visits es := rfl

theorem weight_append (ts us : List Task) : weight (ts ++ us) = weight ts + weight us := by
  induction ts with
  | nil => simp [weight]
  | cons t ts ih => simp only [List.cons_append, weight, ih]; omega

theorem weight_cons (t : Task) (ts : List Task) : weight (t :: ts) = t.weight + weight ts := rfl

theorem weight_visits (es : List Expr) :
    weight (visits es) = 2 * Expr.totalSize es := by
  induction es with
  | nil => rfl
  | cons e es ih => simp only [visits_cons, weight_cons, ih, Task.weight, Expr.totalSize]; omega

def run (c : Context) : List Task → List Value → Except Halt Value
  | [], results =>
    match results with
    | [v] => .ok v
    | _ => .error .unbalanced
  | .visit (.constant v) :: tasks, results => run c tasks (v :: results)
  | .visit (.name x) :: tasks, results =>
    match c.value x with
    | .error fault => .error (.fault fault)
    | .ok v => run c tasks (v :: results)
  | .visit (.unary op operand) :: tasks, results =>
    run c (.visit operand :: .applyUnary op :: tasks) results
  | .visit (.binary op left right) :: tasks, results =>
    run c (.visit left :: .visit right :: .applyBinary op :: tasks) results
  | .visit (.list items) :: tasks, results =>
    run c (visits items ++ .gather items.length :: tasks) results
  | .applyUnary op :: tasks, results =>
    match results with
    | a :: results =>
      match op.applyUnary a with
      | .error fault => .error (.fault fault)
      | .ok v => run c tasks (v :: results)
    | [] => .error .unbalanced
  | .applyBinary op :: tasks, results =>
    match results with
    | b :: a :: results =>
      match op.applyBinary a b with
      | .error fault => .error (.fault fault)
      | .ok v => run c tasks (v :: results)
    | _ => .error .unbalanced
  | .gather count :: tasks, results =>
    match pop? count results with
    | some (items, results) => run c tasks (.list items :: results)
    | none => .error .unbalanced
termination_by tasks => weight tasks
decreasing_by
  all_goals simp only [weight_append, weight_visits, weight_cons, Task.weight, Expr.size]
  all_goals omega

theorem pop?_append (items results : List Value) :
    pop? items.length (items.reverse ++ results) = some (items, results) := by
  simp [pop?]

mutual

/-- A tree that is visited leaves its value on the stack, or its fault stops the machine. -/
theorem run_visit (c : Context) (e : Expr) (tasks : List Task) (results : List Value) :
    run c (.visit e :: tasks) results =
      match e.eval c with
      | .error fault => .error (.fault fault)
      | .ok v => run c tasks (v :: results) := by
  cases e with
  | constant v => rw [run, Expr.eval]
  | name x => rw [run, Expr.eval]
  | unary op operand =>
      rw [run, run_visit c operand, Expr.eval]
      cases operand.eval c with
      | error fault => rfl
      | ok a => simp only []; rw [run]
  | binary op left right =>
      rw [run, run_visit c left, Expr.eval]
      cases left.eval c with
      | error fault => rfl
      | ok a =>
          simp only []
          rw [run_visit c right]
          cases right.eval c with
          | error fault => rfl
          | ok b => simp only []; rw [run]
  | list items =>
      rw [run, run_visits c items, Expr.eval]
      cases h : Expr.evalItems c items with
      | error fault => rfl
      | ok vs =>
          simp only [Except.map]
          rw [run, ← Expr.evalItems_length h, pop?_append]

theorem run_visits (c : Context) (es : List Expr) (tasks : List Task) (results : List Value) :
    run c (visits es ++ tasks) results =
      match Expr.evalItems c es with
      | .error fault => .error (.fault fault)
      | .ok vs => run c tasks (vs.reverse ++ results) := by
  cases es with
  | nil => rfl
  | cons e es =>
      rw [visits_cons, List.cons_append, run_visit c e, Expr.evalItems]
      cases e.eval c with
      | error fault => rfl
      | ok v =>
          simp only []
          rw [run_visits c es]
          cases Expr.evalItems c es <;> simp [Except.map]

end

theorem run_ne_unbalanced (c : Context) (e : Expr) :
    run c [.visit e] [] ≠ .error .unbalanced := by
  rw [run_visit]
  cases e.eval c <;> simp [run]

end Machine

def evaluate (c : Context) (e : Expr) : Except Fault Value :=
  match h : Machine.run c [.visit e] [] with
  | .ok v => .ok v
  | .error (.fault fault) => .error fault
  | .error .unbalanced => absurd h (Machine.run_ne_unbalanced c e)

theorem evaluate_eq_eval (c : Context) (e : Expr) : evaluate c e = e.eval c := by
  have h := Machine.run_visit c e [] []
  unfold evaluate
  split <;> rename_i hr <;> rw [h] at hr
  · cases he : e.eval c <;> simp_all [Machine.run]
  · cases he : e.eval c <;> simp_all [Machine.run]
  · exact absurd (h.trans hr) (Machine.run_ne_unbalanced c e)

end TemplateExpr
