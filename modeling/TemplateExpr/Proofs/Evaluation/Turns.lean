import TemplateExpr.Eval

namespace TemplateExpr.Machine

inductive Turn where
  | next (tasks : List Task) (results : List Value)
  | stop (outcome : Except Halt Value)

def Turn.push (tasks : List Task) (results : List Value) : Except Fault Value → Turn
  | .ok v => .next tasks (v :: results)
  | .error fault => .stop (.error (.fault fault))

def turn (c : Context) : List Task → List Value → Turn
  | [], [v] => .stop (.ok v)
  | [], _ => .stop (.error .unbalanced)
  | .visit (.constant v) :: tasks, results => .next tasks (v :: results)
  | .visit (.name x) :: tasks, results => .push tasks results (c.value x)
  | .visit (.unary op operand) :: tasks, results =>
    .next (.visit operand :: .applyUnary op :: tasks) results
  | .visit (.binary op left right) :: tasks, results =>
    .next (.visit left :: .visit right :: .applyBinary op :: tasks) results
  | .visit (.list items) :: tasks, results =>
    .next (visits items ++ .gather items.length :: tasks) results
  | .applyUnary op :: tasks, a :: results => .push tasks results (op.applyUnary a)
  | .applyBinary op :: tasks, b :: a :: results => .push tasks results (op.applyBinary a b)
  | .gather count :: tasks, results =>
    match pop? count results with
    | some (items, results) => .next tasks (.list items :: results)
    | none => .stop (.error .unbalanced)
  | _, _ => .stop (.error .unbalanced)

theorem run_eq_turn (c : Context) (tasks : List Task) (results : List Value) :
    run c tasks results =
      match turn c tasks results with
      | .next tasks results => run c tasks results
      | .stop outcome => outcome := by
  match tasks, results with
  | [], [] | [], [_] | [], _ :: _ :: _ => simp [run, turn]
  | .visit (.constant v) :: tasks, results => rw [run]; rfl
  | .visit (.name x) :: tasks, results =>
      rw [run, turn]
      cases c.value x <;> rfl
  | .visit (.unary op operand) :: tasks, results => rw [run]; rfl
  | .visit (.binary op left right) :: tasks, results => rw [run]; rfl
  | .visit (.list items) :: tasks, results => rw [run]; rfl
  | .applyUnary op :: tasks, [] => rw [run]; rfl
  | .applyUnary op :: tasks, a :: results =>
      rw [run, turn]
      cases op.applyUnary a <;> rfl
  | .applyBinary op :: tasks, [] | .applyBinary op :: tasks, [_] => simp [run, turn]
  | .applyBinary op :: tasks, b :: a :: results =>
      rw [run, turn]
      cases op.applyBinary a b <;> rfl
  | .gather count :: tasks, results =>
      rw [run, turn]
      cases pop? count results <;> rfl

inductive Reaches (c : Context) : Nat → List Task → List Value → List Task → List Value → Prop
  | here (tasks : List Task) (results : List Value) : Reaches c 0 tasks results tasks results
  | next {n : Nat} {tasks mid final : List Task} {results midResults finalResults : List Value}
      (h : turn c tasks results = .next mid midResults)
      (hr : Reaches c n mid midResults final finalResults) :
      Reaches c (n + 1) tasks results final finalResults

/-- So many results suffice for the tasks and leave one behind. -/
def Suffices : List Task → Nat → Prop
  | [], n => n = 1
  | .visit _ :: tasks, n => Suffices tasks (n + 1)
  | .applyUnary _ :: tasks, n => 1 ≤ n ∧ Suffices tasks n
  | .applyBinary _ :: tasks, n => 2 ≤ n ∧ Suffices tasks (n - 1)
  | .gather count :: tasks, n => count ≤ n ∧ Suffices tasks (n - count + 1)

theorem suffices_visits {es : List Expr} {tasks : List Task} {n : Nat} :
    Suffices (visits es ++ tasks) n ↔ Suffices tasks (n + es.length) := by
  induction es generalizing n with
  | nil => rfl
  | cons e es ih =>
      rw [visits_cons, List.cons_append, Suffices, ih, List.length_cons, Nat.add_right_comm,
        Nat.add_assoc]

/-- A turn leaves enough results and lighter tasks, or ends the machine for want of nothing. -/
def Turn.Keeps (bound : Nat) : Turn → Prop
  | .next tasks results => Suffices tasks results.length ∧ weight tasks < bound
  | .stop outcome => outcome ≠ .error .unbalanced

theorem push_keeps {bound : Nat} {tasks : List Task} {results : List Value}
    (hs : Suffices tasks (results.length + 1)) (hw : weight tasks < bound)
    (value : Except Fault Value) : (Turn.push tasks results value).Keeps bound := by
  cases value with
  | error fault => simp [Turn.push, Turn.Keeps]
  | ok v => exact ⟨hs, hw⟩

theorem turn_keeps (c : Context) {tasks : List Task} {results : List Value}
    (hs : Suffices tasks results.length) : (turn c tasks results).Keeps (weight tasks) := by
  match tasks, results with
  | [], [] | [], _ :: _ :: _ => simp [Suffices] at hs
  | [], [_] => simp [turn, Turn.Keeps]
  | .visit (.constant v) :: tasks, results =>
      exact ⟨hs, by simp [weight_cons, Task.weight, Expr.size]⟩
  | .visit (.name x) :: tasks, results =>
      exact push_keeps hs (by simp [weight_cons, Task.weight, Expr.size]) _
  | .visit (.unary op operand) :: tasks, results =>
      refine ⟨⟨Nat.le_add_left 1 _, hs⟩, ?_⟩
      simp only [weight_cons, Task.weight, Expr.size]
      omega
  | .visit (.binary op left right) :: tasks, results =>
      refine ⟨⟨Nat.le_add_left 2 _, hs⟩, ?_⟩
      simp only [weight_cons, Task.weight, Expr.size]
      omega
  | .visit (.list items) :: tasks, results =>
      refine ⟨suffices_visits.2 ⟨Nat.le_add_left _ _, ?_⟩, ?_⟩
      · rw [Nat.add_sub_cancel]
        exact hs
      · simp only [weight_append, weight_visits, weight_cons, Task.weight, Expr.size]
        omega
  | .applyUnary op :: tasks, [] => exact absurd hs.1 (by simp)
  | .applyUnary op :: tasks, a :: results =>
      exact push_keeps hs.2 (by simp [weight_cons, Task.weight]) _
  | .applyBinary op :: tasks, [] | .applyBinary op :: tasks, [_] => exact absurd hs.1 (by simp)
  | .applyBinary op :: tasks, b :: a :: results =>
      exact push_keeps hs.2 (by simp [weight_cons, Task.weight]) _
  | .gather count :: tasks, results =>
      obtain ⟨hle, hs⟩ := hs
      simp only [turn, pop?, hle, if_true]
      exact ⟨by simpa using hs, by simp [weight_cons, Task.weight]⟩

theorem keeps_of_turn {c : Context} {tasks mid : List Task} {results midResults : List Value}
    (hs : Suffices tasks results.length) (h : turn c tasks results = .next mid midResults) :
    Suffices mid midResults.length ∧ weight mid < weight tasks := by
  have hk := turn_keeps c hs
  rwa [h] at hk

theorem Reaches.keeps {c : Context} {n : Nat} {tasks mid : List Task}
    {results midResults : List Value} (h : Reaches c n tasks results mid midResults)
    (hs : Suffices tasks results.length) :
    Suffices mid midResults.length ∧ n + weight mid ≤ weight tasks := by
  induction h with
  | here => exact ⟨hs, by omega⟩
  | next ht _ ih =>
      obtain ⟨hs', hlt⟩ := keeps_of_turn hs ht
      obtain ⟨hs'', hle⟩ := ih hs'
      exact ⟨hs'', by omega⟩

theorem exists_reaches_stop (c : Context) {tasks : List Task} {results : List Value}
    (hs : Suffices tasks results.length) :
    ∃ n final finalResults, Reaches c n tasks results final finalResults ∧
      turn c final finalResults = .stop (run c tasks results) := by
  cases ht : turn c tasks results with
  | stop outcome =>
      refine ⟨0, tasks, results, .here tasks results, ?_⟩
      rw [run_eq_turn, ht]
  | next mid midResults =>
      obtain ⟨hs', hlt⟩ := keeps_of_turn hs ht
      obtain ⟨n, final, finalResults, hr, ho⟩ := exists_reaches_stop c hs'
      refine ⟨n + 1, final, finalResults, .next ht hr, ?_⟩
      rw [run_eq_turn, ht]
      exact ho
termination_by weight tasks
decreasing_by exact hlt

end TemplateExpr.Machine
