import TemplateExpr.Proofs.Evaluation.Operands
import TemplateExpr.Proofs.Evaluation.PostOrder

namespace TemplateExpr

def Fault.listing (known : List String) : Fault → Fault
  | .undefinedVariable x _ => .undefinedVariable x known
  | fault => fault

namespace Expr

inductive Mentions (x : String) : Expr → Prop
  | name : Mentions x (.name x)
  | unary {op : Operator} {a : Expr} (h : Mentions x a) : Mentions x (.unary op a)
  | left {op : Operator} {a b : Expr} (h : Mentions x a) : Mentions x (.binary op a b)
  | right {op : Operator} {a b : Expr} (h : Mentions x b) : Mentions x (.binary op a b)
  | item {e : Expr} {items : List Expr} (he : e ∈ items) (h : Mentions x e) : Mentions x (.list items)

mutual

/-- The tree with the values of its names in their places, as far as they have values. -/
def filled (c : Context) : Expr → Expr
  | .constant v => .constant v
  | .name x =>
    match c.get? x with
    | some v => .constant v
    | none => .name x
  | .unary op a => .unary op (filled c a)
  | .binary op a b => .binary op (filled c a) (filled c b)
  | .list items => .list (filledItems c items)

def filledItems (c : Context) : List Expr → List Expr
  | [] => []
  | e :: es => filled c e :: filledItems c es

end

end Expr

/-- The outcome has nothing to do with what a context lists. -/
def Unlisted {α : Type} (r : Except Fault α) : Prop := ∀ known, r.mapError (Fault.listing known) = r

theorem Judged.unlisted {α : Type} {fits : Prop} {r : Except Fault α} (h : Judged fits r) :
    Unlisted r := by
  intro known
  cases h with
  | ok => rfl
  | error h =>
      cases h with
      | type h | arithmetic h =>
          rename_i fault
          cases fault <;> first | rfl | cases h
      | limit => rfl

namespace Operator

theorem applyBinary_unlisted (op : Operator) (a b : Value) : Unlisted (op.applyBinary a b) := by
  by_cases hop : op = .not
  · subst hop
    exact fun _ => rfl
  · exact (applyBinary_judged hop).unlisted

theorem applyUnary_unlisted (op : Operator) (a : Value) : Unlisted (op.applyUnary a) := by
  by_cases hop : op = .not ∨ op = .sub ∨ op = .add
  · exact (applyUnary_judged hop).unlisted
  · cases op <;> first | exact fun _ => rfl | simp at hop

end Operator

namespace Expr

variable {c c' : Context} {x : String}

mutual

theorem eval_of_agree {e : Expr} (h : ∀ x, e.Mentions x → c.get? x = c'.get? x) :
    e.eval c' = (e.eval c).mapError (Fault.listing c'.names) := by
  match e with
  | .constant v => rfl
  | .name x =>
      rw [eval, eval, Context.value, Context.value, h x .name]
      cases c'.get? x <;> rfl
  | .unary op a =>
      have ha := eval_of_agree fun x hx => h x (.unary hx)
      rw [eval, eval, ha]
      cases a.eval c with
      | error fault => rfl
      | ok v => exact (op.applyUnary_unlisted v _).symm
  | .binary op a b =>
      have ha := eval_of_agree fun x hx => h x (.left hx)
      have hb := eval_of_agree fun x hx => h x (.right hx)
      rw [eval, eval, ha, hb]
      cases a.eval c with
      | error fault => rfl
      | ok v =>
          cases b.eval c with
          | error fault => rfl
          | ok w => exact (op.applyBinary_unlisted v w _).symm
  | .list items =>
      have hitems := evalItems_of_agree fun e he x hx => h x (.item he hx)
      rw [eval, eval, hitems]
      cases evalItems c items <;> rfl

theorem evalItems_of_agree {es : List Expr}
    (h : ∀ e ∈ es, ∀ x, e.Mentions x → c.get? x = c'.get? x) :
    evalItems c' es = (evalItems c es).mapError (Fault.listing c'.names) := by
  match es with
  | [] => rfl
  | e :: es =>
      obtain ⟨he, hes⟩ := List.forall_mem_cons.1 h
      rw [evalItems, evalItems, eval_of_agree he, evalItems_of_agree hes]
      cases e.eval c with
      | error fault => rfl
      | ok v => cases evalItems c es <;> rfl

end

mutual

theorem eval_filled {e : Expr} (h : ∀ x, e.Mentions x → ∃ v, c.get? x = some v) (c' : Context) :
    (e.filled c).eval c' = e.eval c := by
  match e with
  | .constant v => rfl
  | .name x =>
      obtain ⟨v, hv⟩ := h x .name
      rw [filled, hv, eval, eval, Context.value, hv]
  | .unary op a =>
      have ha := eval_filled (fun x hx => h x (.unary hx)) c'
      rw [filled, eval, eval, ha]
  | .binary op a b =>
      have ha := eval_filled (fun x hx => h x (.left hx)) c'
      have hb := eval_filled (fun x hx => h x (.right hx)) c'
      rw [filled, eval, eval, ha, hb]
  | .list items =>
      have hitems := evalItems_filled (fun e he x hx => h x (.item he hx)) c'
      rw [filled, eval, eval, hitems]

theorem evalItems_filled {es : List Expr}
    (h : ∀ e ∈ es, ∀ x, e.Mentions x → ∃ v, c.get? x = some v) (c' : Context) :
    evalItems c' (filledItems c es) = evalItems c es := by
  match es with
  | [] => rfl
  | e :: es =>
      obtain ⟨he, hes⟩ := List.forall_mem_cons.1 h
      rw [filledItems, evalItems, evalItems, eval_filled he, evalItems_filled hes]

end

theorem mem_itemsPostOrder {e node : Expr} {es : List Expr} (he : e ∈ es)
    (hn : node ∈ e.postOrder) : node ∈ itemsPostOrder es := by
  induction es with
  | nil => cases he
  | cons first es ih =>
      rw [itemsPostOrder]
      rcases List.mem_cons.1 he with rfl | he
      · exact List.mem_append_left _ hn
      · exact List.mem_append_right _ (ih he)

theorem Mentions.mem_postOrder {e : Expr} (h : e.Mentions x) : .name x ∈ e.postOrder := by
  induction h with
  | name => exact List.mem_singleton_self _
  | unary _ ih => exact List.mem_append_left _ ih
  | left _ ih => exact List.mem_append_left _ (List.mem_append_left _ ih)
  | right _ ih => exact List.mem_append_left _ (List.mem_append_right _ ih)
  | item he _ ih => exact List.mem_append_left _ (mem_itemsPostOrder he ih)

theorem Mentions.get?_ne_none {e : Expr} {v : Value} (h : e.Mentions x) (hv : e.eval c = .ok v) :
    c.get? x ≠ none := by
  have haccounts := postOrder_accounts c e
  rw [hv] at haccounts
  obtain ⟨w, hw⟩ := haccounts _ h.mem_postOrder
  intro hnone
  simp [eval, Context.value, hnone] at hw

end Expr

/-- Contexts that give the names in a tree the same values give it the same outcome, apart from the
names that a fault lists, which are those of the context. If one name in the tree has no value the tree
has none, and if all have values they can be put in their places and no context is needed. -/
theorem evaluate_depends_on_names (c : Context) (e : Expr) :
    (∀ c', (∀ x, e.Mentions x → c.get? x = c'.get? x) →
      evaluate c' e = (evaluate c e).mapError (Fault.listing c'.names)) ∧
    (∀ x, e.Mentions x → c.get? x = none → ∃ fault, evaluate c e = .error fault) ∧
    ((∀ x, e.Mentions x → ∃ v, c.get? x = some v) →
      evaluate c e = evaluate .empty (e.filled c)) := by
  simp only [evaluate_eq_eval]
  refine ⟨fun c' => Expr.eval_of_agree, fun x hx hnone => ?_, fun h => (Expr.eval_filled h _).symm⟩
  cases he : e.eval c with
  | error fault => exact ⟨fault, rfl⟩
  | ok v => exact absurd hnone (hx.get?_ne_none he)

theorem evaluate_depends_on_names_or :
    let e : Expr := .binary .or (.constant (.boolean true)) (.name "y")
    let c : Context := ⟨[("x", .integer 1)]⟩
    let d : Context := ⟨[("y", .boolean false)]⟩
    (∀ x, e.Mentions x → c.get? x = Context.empty.get? x) ∧ e.Mentions "y" ∧ c.get? "y" = none ∧
      (∃ fault, evaluate c e = .error fault) ∧
      evaluate c e = .error (.undefinedVariable "y" ["x"]) ∧
      evaluate .empty e = .error (.undefinedVariable "y" []) ∧
      (∀ x, e.Mentions x → ∃ v, d.get? x = some v) ∧
      evaluate d e = evaluate .empty (.binary .or (.constant (.boolean true))
        (.constant (.boolean false))) ∧
      evaluate d e = .ok (.boolean true) := by
  intro e c d
  have honly : ∀ x, e.Mentions x → x = "y" := by
    intro x hx
    change (Expr.binary _ _ _).Mentions x at hx
    cases hx with
    | left h => cases h
    | right h =>
        cases h
        rfl
  have hy : e.Mentions "y" := .right .name
  have hagree : ∀ x, e.Mentions x → c.get? x = Context.empty.get? x := by
    intro x hx
    rw [honly x hx]
    rfl
  have hbound : ∀ x, e.Mentions x → ∃ v, d.get? x = some v := by
    intro x hx
    rw [honly x hx]
    exact ⟨.boolean false, rfl⟩
  have hfault : evaluate c e = .error (.undefinedVariable "y" ["x"]) := by
    rw [evaluate_eq_eval]
    rfl
  obtain ⟨hsame, hnever, -⟩ := evaluate_depends_on_names c e
  have hempty := hsame .empty hagree
  rw [hfault] at hempty
  have hvalue : evaluate d e = .ok (.boolean true) := by
    rw [evaluate_eq_eval]
    rfl
  exact ⟨hagree, hy, rfl, hnever "y" hy rfl, hfault, hempty, hbound,
    (evaluate_depends_on_names d e).2.2 hbound, hvalue⟩

end TemplateExpr
