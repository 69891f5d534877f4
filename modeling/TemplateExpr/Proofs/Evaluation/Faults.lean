import TemplateExpr.Proofs.Evaluation.Operands
import TemplateExpr.Proofs.Evaluation.PostOrder
import TemplateExpr.Proofs.Evaluation.Range
import TemplateExpr.Proofs.Grammar.Printing

namespace TemplateExpr

namespace Grammar

variable {depth level : Nat} {t : Token} {p : List Token} {e : Expr} {es : List Expr}

theorem Item.isTerm (h : Item t e) : e.IsTerm := by
  cases h with
  | value h => exact .inl ⟨_, rfl⟩
  | name h => exact .inr ⟨_, rfl⟩

theorem Row.isTerm (h : Row p es) : ∀ e ∈ es, e.IsTerm := by
  induction h with
  | last h => simpa using h.isTerm
  | more h _ _ ih => exact List.forall_mem_cons.2 ⟨h.isTerm, ih⟩

theorem Contents.isTerm (h : Contents p es) : ∀ e ∈ es, e.IsTerm := by
  cases h with
  | empty => simp
  | row h | trailing h _ => exact h.isTerm

theorem Derives.writable (h : Derives depth level p e) : e.Writable := by
  induction h with
  | tighter _ _ ih => exact ih
  | binary hop _ _ _ ihp ihq =>
      refine .binary ?_ ihp ihq
      rintro rfl
      cases (mem_operators_iff.1 hop).1
  | unary hop _ _ ih => exact .unary (by simpa [frontOperators] using hop) ih
  | item h =>
      rcases h.isTerm with ⟨v, rfl⟩ | ⟨x, rfl⟩
      · exact .constant
      · exact .name
  | list _ _ h => exact .list h.isTerm
  | group _ _ _ ih => exact ih

end Grammar

theorem parseSource_writable {source : String} {e : Expr} (h : parseSource source = .ok e) :
    e.Writable := by
  obtain ⟨ts, -, hblock⟩ := Grammar.parseSource_eq_ok_iff.1 h
  obtain ⟨opening, p, closing, -, -, -, hd⟩ := Grammar.parseBlock_eq_ok_iff.1 hblock
  exact hd.writable

namespace Expr

variable {c : Context} {e : Expr} {v : Value} {fault : Fault}

mutual

theorem forall_mem_postOrder {P : Expr → Prop} (hP : ∀ e, P e → ∀ child ∈ e.children, P child)
    (e : Expr) (h : P e) : ∀ node ∈ e.postOrder, P node := by
  match e with
  | .constant v | .name x => simpa [postOrder] using h
  | .unary op a =>
      have ha := forall_mem_postOrder hP a (hP _ h a (by simp [children]))
      simpa [postOrder, or_imp, forall_and] using ⟨ha, h⟩
  | .binary op a b =>
      have ha := forall_mem_postOrder hP a (hP _ h a (by simp [children]))
      have hb := forall_mem_postOrder hP b (hP _ h b (by simp [children]))
      simpa [postOrder, or_imp, forall_and] using ⟨ha, hb, h⟩
  | .list items =>
      have hitems := forall_mem_itemsPostOrder hP items (hP _ h)
      simpa [postOrder, or_imp, forall_and] using ⟨hitems, h⟩

theorem forall_mem_itemsPostOrder {P : Expr → Prop}
    (hP : ∀ e, P e → ∀ child ∈ e.children, P child) (es : List Expr) (h : ∀ e ∈ es, P e) :
    ∀ node ∈ itemsPostOrder es, P node := by
  match es with
  | [] => simp [itemsPostOrder]
  | e :: es =>
      obtain ⟨he, hes⟩ := List.forall_mem_cons.1 h
      have hfirst := forall_mem_postOrder hP e he
      have hrest := forall_mem_itemsPostOrder hP es hes
      simpa [itemsPostOrder, or_imp, forall_and] using ⟨hfirst, hrest⟩

end

theorem IsTerm.writable (h : e.IsTerm) : e.Writable := by
  rcases h with ⟨v, rfl⟩ | ⟨x, rfl⟩
  · exact .constant
  · exact .name

theorem Writable.children (h : e.Writable) : ∀ child ∈ e.children, child.Writable := by
  cases h with
  | constant | name => simp [Expr.children]
  | unary _ h => simpa [Expr.children] using h
  | binary _ ha hb => simpa [Expr.children] using ⟨ha, hb⟩
  | list h => exact fun child hc => (h child hc).writable

theorem Fits.children (h : e.Fits) : ∀ child ∈ e.children, child.Fits := by
  cases h with
  | constant | name => simp [Expr.children]
  | unary h => simpa [Expr.children] using h
  | binary ha hb => simpa [Expr.children] using ⟨ha, hb⟩
  | list h => exact h

theorem eval_fits (hc : c.Fits) (he : e.Fits) (h : e.eval c = .ok v) : v.Fits := by
  have hvisit : ∀ t ∈ [Machine.Task.visit e], t.Fits := by
    intro t ht
    rwa [List.mem_singleton.1 ht]
  have hs : Machine.Suffices [.visit e] ([] : List Value).length := rfl
  have hrun := run_eq_ok_of_evaluate ((evaluate_eq_eval c e).trans h)
  exact Machine.run_fits hc hs hvisit (by simp) hrun

theorem FirstFault.exists_mem {nodes : List Expr} (h : FirstFault c nodes fault) :
    ∃ node ∈ nodes, FailsItself c node fault := by
  induction h with
  | here h => exact ⟨_, List.mem_cons_self, h⟩
  | later _ _ ih =>
      obtain ⟨node, hmem, h⟩ := ih
      exact ⟨node, List.mem_cons_of_mem _ hmem, h⟩

theorem eval_fault (hw : e.Writable) (he : e.Fits) (h : e.eval c = .error fault) :
    (∃ x, fault = .undefinedVariable x c.names) ∨ fault.OfOperands c.Fits := by
  obtain ⟨node, hmem, hfails⟩ := (eval_eq_error_iff.1 h).exists_mem
  have hnode : node.Writable ∧ node.Fits := by
    refine forall_mem_postOrder (P := fun e => e.Writable ∧ e.Fits) ?_ e ⟨hw, he⟩ node hmem
    exact fun e h child hc => ⟨h.1.children child hc, h.2.children child hc⟩
  obtain ⟨hw, he⟩ := hnode
  cases hfails with
  | name h => exact .inl ⟨_, rfl⟩
  | unary ha h =>
      cases hw with
      | unary hop _ =>
          cases he with
          | unary he =>
              have hfault := (Operator.applyUnary_judged hop).of_error h
              exact .inr (hfault.of_imp fun hc => eval_fits hc he ha)
  | binary ha hb h =>
      cases hw with
      | binary hop _ _ =>
          cases he with
          | binary hea heb =>
              have hfault := (Operator.applyBinary_judged hop).of_error h
              exact .inr (hfault.of_imp fun hc => ⟨eval_fits hc hea ha, eval_fits hc heb hb⟩)

end Expr

end TemplateExpr
