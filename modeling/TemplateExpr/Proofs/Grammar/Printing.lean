import TemplateExpr.Proofs.Grammar.Acceptance
import TemplateExpr.Proofs.Grammar.Shape

namespace TemplateExpr

namespace Expr

open Grammar

def isBinary : Expr → Bool
  | .binary _ _ _ => true
  | _ => false

/-- Whether the outermost operator is a binary one of lower precedence than `bound`. -/
def isLooser (bound : Nat) : Expr → Bool
  | .binary op _ _ => decide (op.precedence < bound)
  | _ => false

def bracketed (needed : Bool) (p : List Token) : List Token :=
  if needed then ⟨.roundOpen, "(", .start⟩ :: (p ++ [⟨.roundClose, ")", .start⟩]) else p

mutual

def print : Expr → List Token
  | .constant v => [⟨.value v, v.text, .start⟩]
  | .name x => [⟨.name, x, .start⟩]
  | .unary op a => ⟨.operator op, op.symbol, .start⟩ :: bracketed a.isBinary (print a)
  | .binary op a b =>
    bracketed (a.isLooser op.precedence) (print a) ++
      ⟨.operator op, op.symbol, .start⟩ :: bracketed (b.isLooser (op.precedence + 1)) (print b)
  | .list items =>
    ⟨.squareOpen, "[", .start⟩ :: (printItems items ++ [⟨.squareClose, "]", .start⟩])

def printItems : List Expr → List Token
  | [] => []
  | [e] => print e
  | e :: f :: es => print e ++ ⟨.comma, ",", .start⟩ :: printItems (f :: es)

end

def IsTerm (e : Expr) : Prop := (∃ v, e = .constant v) ∨ ∃ x, e = .name x

/-- Operators stand where they may be written, and the items of lists are constants or names. -/
inductive Writable : Expr → Prop
  | constant {v : Value} : Writable (.constant v)
  | name {x : String} : Writable (.name x)
  | unary {op : Operator} {a : Expr} (hop : op = .not ∨ op = .sub ∨ op = .add) (h : Writable a) :
      Writable (.unary op a)
  | binary {op : Operator} {a b : Expr} (hop : op ≠ .not) (ha : Writable a) (hb : Writable b) :
      Writable (.binary op a b)
  | list {items : List Expr} (h : ∀ e ∈ items, e.IsTerm) : Writable (.list items)

def level : Expr → Nat
  | .binary op _ _ => op.precedence
  | _ => 6

variable {e : Expr} {es items : List Expr} {p : List Token} {n bound : Nat}

theorem IsTerm.print (h : e.IsTerm) : ∃ t, e.print = [t] ∧ Item t e := by
  rcases h with ⟨v, rfl⟩ | ⟨x, rfl⟩
  · exact ⟨_, rfl, .value rfl⟩
  · exact ⟨_, rfl, .name rfl⟩

theorem printItems_row (h : ∀ f ∈ e :: es, f.IsTerm) : Row (printItems (e :: es)) (e :: es) := by
  induction es generalizing e with
  | nil =>
      obtain ⟨t, ht, hi⟩ := (h e List.mem_cons_self).print
      rw [printItems, ht]
      exact .last hi
  | cons f es ih =>
      obtain ⟨t, ht, hi⟩ := (h e List.mem_cons_self).print
      have hrow := ih fun g hg => h g (List.mem_cons_of_mem e hg)
      rw [printItems, ht]
      exact .more hi rfl hrow

theorem printItems_contents (h : ∀ e ∈ es, e.IsTerm) : Contents (printItems es) es := by
  cases es with
  | nil => exact .empty
  | cons e es => exact .row (printItems_row h)

theorem level_pos (e : Expr) : 0 < e.level := by
  cases e with
  | binary op _ _ => exact op.precedence_pos
  | _ => exact Nat.succ_pos 5

theorem level_le_six (e : Expr) : e.level ≤ 6 := by
  cases e with
  | binary op _ _ => exact op.precedence_le_six
  | _ => exact Nat.le_refl 6

theorem le_level_of_not_isLooser (hle : bound ≤ 6) (h : e.isLooser bound = false) :
    bound ≤ e.level := by
  cases e with
  | binary op _ _ => simpa [isLooser, level] using h
  | _ => exact hle

theorem level_of_not_isBinary (h : e.isBinary = false) : e.level = 6 := by
  cases e with
  | binary _ _ _ => cases h
  | _ => rfl

theorem derives_bracketed {needed : Bool} (h : ∀ depth, n ≤ depth → Derives depth e.level p e)
    (hbound : bound ≤ 6) (hneeded : needed = false → bound ≤ e.level) {depth : Nat}
    (hdepth : n < depth) : Derives depth bound (bracketed needed p) e := by
  cases needed with
  | false =>
      have hd := h depth (Nat.le_of_lt hdepth)
      exact hd.looser (hneeded rfl) (level_le_six e)
  | true =>
      obtain ⟨inner, rfl⟩ := Nat.exists_eq_succ_of_ne_zero (Nat.ne_zero_of_lt hdepth)
      have hd := (h inner (Nat.le_of_lt_succ hdepth)).looser (level_pos e) (level_le_six e)
      exact (Derives.group rfl rfl hd).looser hbound (Nat.le_refl 6)

theorem derives_print (h : e.Writable) {depth : Nat} (hdepth : e.size ≤ depth) :
    Derives depth e.level e.print e := by
  induction h generalizing depth with
  | constant => exact .item (.value rfl)
  | name => exact .item (.name rfl)
  | @unary op a hop _ ih =>
      have hfront : op ∈ frontOperators := by
        rcases hop with rfl | rfl | rfl <;> decide
      rw [size] at hdepth
      have hneeded : a.isBinary = false → 6 ≤ a.level := fun hb =>
        Nat.le_of_eq (level_of_not_isBinary hb).symm
      exact .unary hfront rfl
        (derives_bracketed (fun depth => ih) (Nat.le_refl 6) hneeded hdepth)
  | @binary op a b hop _ _ iha ihb =>
      have hb : op.isBinary = true := by cases op <;> first | rfl | exact absurd rfl hop
      have hfive := Operator.precedence_le_five hb
      rw [size] at hdepth
      have hleft : Derives depth op.precedence (bracketed (a.isLooser op.precedence) a.print) a :=
        derives_bracketed (fun depth => iha) (by omega) (le_level_of_not_isLooser (by omega))
          (by omega)
      have hright : Derives depth (op.precedence + 1)
          (bracketed (b.isLooser (op.precedence + 1)) b.print) b :=
        derives_bracketed (fun depth => ihb) (by omega) (le_level_of_not_isLooser (by omega))
          (by omega)
      exact .binary (mem_operators_iff.2 ⟨hb, rfl⟩) rfl hleft hright
  | list h => exact .list rfl rfl (printItems_contents h)

end Expr

open Grammar Parse

/-- Tokens that say what is printed of a tree are read as the tree, wherever they stand, if no more
brackets are nested in them than can be. -/
theorem parse_print {e : Expr} {ts rest : List Token} (h : e.Writable)
    (hts : ts.map Token.content = e.print.map Token.content) (hnesting : nesting 0 e.print ≤ 64)
    (hrest : rest = [] ∨ ∃ t more, rest = t :: more ∧ t.kind = .blockEnd) :
    TokenStream.parse ⟨ts ++ rest⟩ = (.ok e, ⟨rest⟩) := by
  have hprint := (Expr.derives_print h (Nat.le_refl e.size)).looser e.level_pos e.level_le_six
  have hd : Derives maxNesting 1 e.print e := derives_iff_nesting_le.2 ⟨⟨_, hprint⟩, hnesting⟩
  have hend : AtEnd rest := by
    rcases hrest with rfl | ⟨t, more, rfl, ht⟩
    · simp [AtEnd]
    · simpa [AtEnd] using ht
  obtain ⟨hr, hrest⟩ := parse_yields_iff.2 ⟨ts, rfl, hend, hd.of_content hts.symm⟩
  rw [TokenStream.parse, hr, hrest]

theorem parse_print_brackets :
    let inner : Expr := .binary .sub (.constant (.integer 2)) (.constant (.integer 3))
    let left : Expr := .binary .sub (.constant (.integer 1)) inner
    let e : Expr := .binary .mul left (.unary .sub (.name "x"))
    let blockEnd : Token := ⟨.blockEnd, "%>", .start⟩
    e.Writable ∧ nesting 0 e.print = 2 ∧ e.print.length = 12 ∧
      TokenStream.parse ⟨e.print ++ [blockEnd]⟩ = (.ok e, ⟨[blockEnd]⟩) := by
  intro inner left e blockEnd
  have hleft : left.Writable := .binary (by decide) .constant (.binary (by decide) .constant .constant)
  have hright : (Expr.unary .sub (.name "x")).Writable := .unary (.inr (.inl rfl)) .name
  have he : e.Writable := .binary (by decide) hleft hright
  have hnesting : nesting 0 e.print = 2 := by rfl
  have hdepth : nesting 0 e.print ≤ 64 := hnesting ▸ by decide
  exact ⟨he, hnesting, rfl, parse_print he rfl hdepth (.inr ⟨blockEnd, [], rfl, rfl⟩)⟩

end TemplateExpr
