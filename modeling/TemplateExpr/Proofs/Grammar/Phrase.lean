import TemplateExpr.Expr.Basic
import TemplateExpr.Token.Basic

namespace TemplateExpr.Grammar

def operators : Nat → List Operator
  | 1 => [.or]
  | 2 => [.and]
  | 3 => [.eq, .ne, .lt, .le, .gt, .ge]
  | 4 => [.add, .sub]
  | 5 => [.mul, .div, .mod]
  | _ => []

def frontOperators : List Operator := [.not, .sub, .add]

inductive Item : Token → Expr → Prop
  | value {t : Token} {v : Value} (h : t.kind = .value v) : Item t (.constant v)
  | name {t : Token} (h : t.kind = .name) : Item t (.name t.text)

inductive Row : List Token → List Expr → Prop
  | last {t : Token} {e : Expr} (h : Item t e) : Row [t] [e]
  | more {t comma : Token} {e : Expr} {p : List Token} {es : List Expr} (h : Item t e)
      (hc : comma.kind = .comma) (hr : Row p es) : Row (t :: comma :: p) (e :: es)

/-- What stands between square brackets: nothing, or a row that one more comma may follow. -/
inductive Contents : List Token → List Expr → Prop
  | empty : Contents [] []
  | row {p : List Token} {es : List Expr} (h : Row p es) : Contents p es
  | trailing {p : List Token} {comma : Token} {es : List Expr} (h : Row p es)
      (hc : comma.kind = .comma) : Contents (p ++ [comma]) es

/-- What may stand behind an item up to the closing bracket: nothing, or a comma and contents. -/
inductive Continuation : List Token → List Expr → Prop
  | stop : Continuation [] []
  | comma {p : List Token} {comma : Token} {es : List Expr} (hc : comma.kind = .comma)
      (h : Contents p es) : Continuation (comma :: p) es

inductive Derives : Nat → Nat → List Token → Expr → Prop
  | tighter {depth level : Nat} {p : List Token} {e : Expr} (hl : level ≤ 5)
      (h : Derives depth (level + 1) p e) : Derives depth level p e
  | binary {depth level : Nat} {p q : List Token} {t : Token} {op : Operator} {left right : Expr}
      (hop : op ∈ operators level) (ht : t.kind = .operator op)
      (hp : Derives depth level p left) (hq : Derives depth (level + 1) q right) :
      Derives depth level (p ++ t :: q) (.binary op left right)
  | unary {depth : Nat} {p : List Token} {t : Token} {op : Operator} {operand : Expr}
      (hop : op ∈ frontOperators) (ht : t.kind = .operator op) (hp : Derives depth 6 p operand) :
      Derives depth 6 (t :: p) (.unary op operand)
  | item {depth : Nat} {t : Token} {e : Expr} (h : Item t e) : Derives depth 6 [t] e
  | list {depth : Nat} {p : List Token} {opening closing : Token} {es : List Expr}
      (ho : opening.kind = .squareOpen) (hc : closing.kind = .squareClose) (h : Contents p es) :
      Derives depth 6 (opening :: (p ++ [closing])) (.list es)
  | group {depth : Nat} {p : List Token} {opening closing : Token} {e : Expr}
      (ho : opening.kind = .roundOpen) (hc : closing.kind = .roundClose) (h : Derives depth 1 p e) :
      Derives (depth + 1) 6 (opening :: (p ++ [closing])) e

theorem mem_operators_iff {op : Operator} {level : Nat} :
    op ∈ operators level ↔ op.isBinary = true ∧ op.precedence = level := by
  unfold operators
  split <;> cases op <;> simp_all [Operator.isBinary, Operator.precedence, eq_comm]

theorem mem_frontOperators_iff {op : Operator} : op ∈ frontOperators ↔ op.isUnary = true := by
  cases op <;> simp [frontOperators, Operator.isUnary]

theorem Derives.looser {depth level other : Nat} {p : List Token} {e : Expr}
    (h : Derives depth level p e) (hle : other ≤ level) (hl : level ≤ 6) :
    Derives depth other p e := by
  induction hle with
  | refl => exact h
  | step _ ih => exact ih (.tighter (by omega) h) (by omega)

theorem item_iff {t : Token} {e : Expr} :
    Item t e ↔ (∃ v, t.kind = .value v ∧ .constant v = e) ∨ (t.kind = .name ∧ .name t.text = e) := by
  constructor
  · rintro (h | h)
    · exact .inl ⟨_, h, rfl⟩
    · exact .inr ⟨h, rfl⟩
  · rintro (⟨v, h, rfl⟩ | ⟨h, rfl⟩)
    · exact .value h
    · exact .name h

theorem Continuation.contents {t : Token} {e : Expr} {p : List Token} {es : List Expr}
    (h : Continuation p es) (ht : Item t e) : Contents (t :: p) (e :: es) := by
  cases h with
  | stop => exact .row (.last ht)
  | comma hc h =>
      cases h with
      | empty => exact .trailing (.last ht) hc
      | row h => exact .row (.more ht hc h)
      | trailing h hc' => exact .trailing (.more ht hc h) hc'

theorem Item.kind_ne_blockEnd {t : Token} {e : Expr} (h : Item t e) : t.kind ≠ .blockEnd := by
  cases h <;> simp_all

theorem Row.kind_ne_blockEnd {p : List Token} {es : List Expr} (h : Row p es) :
    ∀ t ∈ p, t.kind ≠ .blockEnd := by
  induction h with
  | last h => simpa using h.kind_ne_blockEnd
  | more h hc _ ih => simpa [hc] using ⟨h.kind_ne_blockEnd, ih⟩

theorem Contents.kind_ne_blockEnd {p : List Token} {es : List Expr} (h : Contents p es) :
    ∀ t ∈ p, t.kind ≠ .blockEnd := by
  cases h with
  | empty => simp
  | row h => exact h.kind_ne_blockEnd
  | trailing h hc =>
      intro t ht
      rcases List.mem_append.1 ht with ht | ht
      · exact h.kind_ne_blockEnd t ht
      · simp_all

theorem Derives.kind_ne_blockEnd {depth level : Nat} {p : List Token} {e : Expr}
    (h : Derives depth level p e) : ∀ t ∈ p, t.kind ≠ .blockEnd := by
  induction h with
  | tighter _ _ ih => exact ih
  | binary _ ht _ _ ihp ihq =>
      intro t hmem
      rcases List.mem_append.1 hmem with hmem | hmem
      · exact ihp t hmem
      · rcases List.mem_cons.1 hmem with rfl | hmem
        · simp [ht]
        · exact ihq t hmem
  | unary _ ht _ ih => simpa [ht] using ih
  | item h => simpa using h.kind_ne_blockEnd
  | list ho hc h => simpa [ho, hc, or_imp, forall_and] using h.kind_ne_blockEnd
  | group ho hc _ ih => simpa [ho, hc, or_imp, forall_and] using ih

end TemplateExpr.Grammar
