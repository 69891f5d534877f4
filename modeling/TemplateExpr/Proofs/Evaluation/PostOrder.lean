import TemplateExpr.Proofs.Evaluation.Turns

namespace TemplateExpr

namespace Expr

mutual

/-- The nodes of a tree, each behind the nodes below it. -/
def postOrder : Expr → List Expr
  | .constant v => [.constant v]
  | .name x => [.name x]
  | .unary op operand => postOrder operand ++ [.unary op operand]
  | .binary op left right => postOrder left ++ postOrder right ++ [.binary op left right]
  | .list items => itemsPostOrder items ++ [.list items]

def itemsPostOrder : List Expr → List Expr
  | [] => []
  | e :: es => postOrder e ++ itemsPostOrder es

end

/-- A node whose operands have values, though it has none itself. Constants and lists always have. -/
inductive FailsItself (c : Context) : Expr → Fault → Prop
  | name {x : String} (h : c.get? x = none) :
      FailsItself c (.name x) (.undefinedVariable x c.names)
  | unary {op : Operator} {operand : Expr} {a : Value} {fault : Fault} (ha : operand.eval c = .ok a)
      (h : op.applyUnary a = .error fault) : FailsItself c (.unary op operand) fault
  | binary {op : Operator} {left right : Expr} {a b : Value} {fault : Fault}
      (ha : left.eval c = .ok a) (hb : right.eval c = .ok b)
      (h : op.applyBinary a b = .error fault) : FailsItself c (.binary op left right) fault

/-- Of nodes in a row the first that has no value fails by itself. -/
inductive FirstFault (c : Context) : List Expr → Fault → Prop
  | here {node : Expr} {nodes : List Expr} {fault : Fault} (h : FailsItself c node fault) :
      FirstFault c (node :: nodes) fault
  | later {node : Expr} {nodes : List Expr} {v : Value} {fault : Fault} (hv : node.eval c = .ok v)
      (h : FirstFault c nodes fault) : FirstFault c (node :: nodes) fault

def Succeed (c : Context) (nodes : List Expr) : Prop := ∀ e ∈ nodes, ∃ v, e.eval c = .ok v

variable {c : Context} {e : Expr} {es nodes others : List Expr} {fault other : Fault}

theorem FailsItself.eval_eq (h : FailsItself c e fault) : e.eval c = .error fault := by
  cases h with
  | name h => simp [eval, Context.value, h]
  | unary ha h => simp [eval, ha, h]
  | binary ha hb h => simp [eval, ha, hb, h]

theorem FirstFault.append_left (h : FirstFault c nodes fault) :
    FirstFault c (nodes ++ others) fault := by
  induction h with
  | here h => exact .here h
  | later hv _ ih => exact .later hv ih

theorem FirstFault.append_right (hs : Succeed c nodes) (h : FirstFault c others fault) :
    FirstFault c (nodes ++ others) fault := by
  induction nodes with
  | nil => exact h
  | cons node nodes ih =>
      obtain ⟨v, hv⟩ := hs node List.mem_cons_self
      exact .later hv (ih fun e he => hs e (List.mem_cons_of_mem _ he))

theorem FirstFault.unique (h : FirstFault c nodes fault) (h' : FirstFault c nodes other) :
    fault = other := by
  induction h with
  | here h =>
      cases h' with
      | here h' => exact Except.error.inj (h.eval_eq.symm.trans h'.eval_eq)
      | later hv _ => cases h.eval_eq.symm.trans hv
  | later hv _ ih =>
      cases h' with
      | here h' => cases h'.eval_eq.symm.trans hv
      | later _ h' => exact ih h'

theorem FirstFault.not_succeed (h : FirstFault c nodes fault) : ¬ Succeed c nodes := by
  intro hs
  induction h with
  | here h =>
      obtain ⟨v, hv⟩ := hs _ List.mem_cons_self
      cases h.eval_eq.symm.trans hv
  | later _ _ ih => exact ih fun e he => hs e (List.mem_cons_of_mem _ he)

theorem succeed_append (h : Succeed c nodes) (h' : Succeed c others) :
    Succeed c (nodes ++ others) := by
  intro e he
  rcases List.mem_append.1 he with he | he
  · exact h e he
  · exact h' e he

def Accounts {α : Type} (c : Context) (nodes : List Expr) : Except Fault α → Prop
  | .ok _ => Succeed c nodes
  | .error fault => FirstFault c nodes fault

theorem Accounts.andThen {α β : Type} {x : Except Fault α} {y : Except Fault β}
    (h : Accounts c nodes x) (herror : ∀ fault, x = .error fault → y = .error fault)
    (hok : ∀ a, x = .ok a → Accounts c others y) : Accounts c (nodes ++ others) y := by
  cases x with
  | error fault =>
      rw [herror fault rfl]
      exact FirstFault.append_left h
  | ok a =>
      have hothers := hok a rfl
      cases y with
      | error fault => exact FirstFault.append_right h hothers
      | ok b => exact succeed_append h hothers

theorem Accounts.map {α β : Type} {x : Except Fault α} {f : α → β} (h : Accounts c nodes x) :
    Accounts c nodes (x.map f) := by
  cases x with
  | error fault => exact h
  | ok a => exact h

theorem accounts_node (h : ∀ fault, e.eval c = .error fault → FailsItself c e fault) :
    Accounts c [e] (e.eval c) := by
  cases he : e.eval c with
  | error fault => exact .here (h fault he)
  | ok v => simpa [Accounts, Succeed] using ⟨v, he⟩

mutual

/-- A tree that has a value has values at all of its nodes, so that none is left unevaluated. -/
theorem postOrder_accounts (c : Context) (e : Expr) : Accounts c e.postOrder (e.eval c) := by
  match e with
  | .constant v => exact accounts_node (by simp [eval])
  | .name x =>
      refine accounts_node fun fault h => ?_
      rw [eval, Context.value] at h
      cases hx : c.get? x with
      | none =>
          rw [hx] at h
          cases h
          exact .name hx
      | some v =>
          rw [hx] at h
          cases h
  | .unary op operand =>
      refine (postOrder_accounts c operand).andThen (fun fault h => by rw [eval, h]) fun a ha => ?_
      refine accounts_node fun fault h => .unary ha ?_
      rwa [eval, ha] at h
  | .binary op left right =>
      rw [postOrder, List.append_assoc]
      refine (postOrder_accounts c left).andThen (fun fault h => by rw [eval, h]) fun a ha => ?_
      refine (postOrder_accounts c right).andThen (fun fault h => by rw [eval, ha, h]) fun b hb => ?_
      refine accounts_node fun fault h => .binary ha hb ?_
      rwa [eval, ha, hb] at h
  | .list items =>
      refine (itemsPostOrder_accounts c items).andThen (fun fault h => by rw [eval, h]; rfl)
        fun vs hvs => ?_
      refine accounts_node fun fault h => ?_
      rw [eval, hvs] at h
      cases h

theorem itemsPostOrder_accounts (c : Context) (es : List Expr) :
    Accounts c (itemsPostOrder es) (evalItems c es) := by
  match es with
  | [] => simp [evalItems, itemsPostOrder, Accounts, Succeed]
  | e :: es =>
      refine (postOrder_accounts c e).andThen (fun fault h => by rw [evalItems, h]) fun v hv => ?_
      rw [evalItems, hv]
      exact (itemsPostOrder_accounts c es).map

end

theorem eval_eq_error_iff {c : Context} {e : Expr} {fault : Fault} :
    e.eval c = .error fault ↔ FirstFault c e.postOrder fault := by
  have haccounts := postOrder_accounts c e
  cases he : e.eval c with
  | error other =>
      rw [he] at haccounts
      constructor
      · intro h
        exact Except.error.inj h ▸ haccounts
      · intro h
        rw [haccounts.unique h]
  | ok v =>
      rw [he] at haccounts
      constructor
      · intro h
        cases h
      · intro h
        exact absurd haccounts h.not_succeed

end Expr

/-- The machine comes to its end within a bounded count of turns, never lacks a result on the way and
never leaves more than one; its outcome is that of the recursion over the tree. The fault, if there is
one, is the first in post-order. -/
theorem machine_evaluates (c : Context) (e : Expr) :
    (∀ n tasks results, Machine.Reaches c n [.visit e] [] tasks results →
      n ≤ 2 * e.size ∧ Machine.turn c tasks results ≠ .stop (.error .unbalanced)) ∧
    (∃ n tasks results, Machine.Reaches c n [.visit e] [] tasks results ∧
      Machine.turn c tasks results = .stop ((e.eval c).mapError .fault)) ∧
    evaluate c e = e.eval c ∧
    ∀ fault, evaluate c e = .error fault ↔ Expr.FirstFault c e.postOrder fault := by
  have hstart : Machine.Suffices [.visit e] ([] : List Value).length := rfl
  have hrun : Machine.run c [.visit e] [] = (e.eval c).mapError .fault := by
    rw [Machine.run_visit]
    cases e.eval c with
    | error fault => rfl
    | ok v =>
        simp only [Machine.run]
        rfl
  refine ⟨fun n tasks results h => ?_, ?_, evaluate_eq_eval c e, fun fault => ?_⟩
  · obtain ⟨hs, hle⟩ := h.keeps hstart
    refine ⟨?_, fun ht => ?_⟩
    · simp only [Machine.weight, Machine.Task.weight] at hle
      omega
    · have hk := Machine.turn_keeps c hs
      rw [ht] at hk
      exact hk rfl
  · obtain ⟨n, tasks, results, hr, ho⟩ := Machine.exists_reaches_stop c hstart
    exact ⟨n, tasks, results, hr, hrun ▸ ho⟩
  · rw [evaluate_eq_eval, Expr.eval_eq_error_iff]

end TemplateExpr
