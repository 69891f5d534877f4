import TemplateExpr.Proofs.Grammar.Reading

namespace TemplateExpr.Parse

open Grammar

variable {room nested : Nat} {p ts rest inner : List Token} {e : Expr} {es fs : List Expr}

theorem items_row (h : Row p es) (hfs : (items false ts).Yields fs rest) :
    (items true (p ++ ts)).Yields (es ++ fs) rest := by
  induction h with
  | last ht => exact items_true_cons_yields.2 (.inr ⟨_, fs, ht, hfs, rfl⟩)
  | more ht hc _ ih =>
      refine items_true_cons_yields.2 (.inr ⟨_, _, ht, ?_, rfl⟩)
      exact items_false_cons_yields.2 (.inr ⟨hc, ih⟩)

theorem items_complete {closing : Token} (h : Contents p es) (hc : closing.kind = .squareClose) :
    (items true (p ++ closing :: rest)).Yields es rest := by
  have hend : (items false (closing :: rest)).Yields [] rest :=
    items_false_cons_yields.2 (.inl ⟨hc, rfl, rfl⟩)
  have hend' : (items true (closing :: rest)).Yields [] rest :=
    items_true_cons_yields.2 (.inl ⟨hc, rfl, rfl⟩)
  cases h with
  | empty => exact hend'
  | row h => simpa using items_row h hend
  | trailing h hcomma =>
      rw [List.append_assoc]
      simpa using items_row h (items_false_cons_yields.2 (.inr ⟨hcomma, hend'⟩))

theorem Closes.cons {n : Nat} {t : Token} (h : Closes n ts inner rest)
    (ht : opened? t nested = some n) : Closes nested (t :: ts) (t :: inner) rest :=
  closes_cons.2 (.inr ⟨n, inner, ht, h, rfl⟩)

theorem opened?_item {t : Token} (h : Item t e) : opened? t nested = some nested := by
  cases h <;> simp [opened?, *]

theorem Closes.row (h : Row p es) (hc : Closes nested ts inner rest) :
    Closes nested (p ++ ts) (p ++ inner) rest := by
  induction h with
  | last ht => exact hc.cons (opened?_item ht)
  | more ht hcomma _ ih => exact (ih.cons (by simp [opened?, hcomma])).cons (opened?_item ht)

theorem Closes.contents (h : Contents p es) (hc : Closes nested ts inner rest) :
    Closes nested (p ++ ts) (p ++ inner) rest := by
  cases h with
  | empty => exact hc
  | row h => exact hc.row h
  | trailing h hcomma =>
      simp only [List.append_assoc, List.cons_append, List.nil_append]
      exact Closes.row h (hc.cons (by simp [opened?, hcomma]))

theorem Closes.append {level : Nat} (h : Derives room level p e)
    (hc : Closes nested ts inner rest) : Closes nested (p ++ ts) (p ++ inner) rest := by
  induction h generalizing nested ts inner with
  | tighter _ _ ih => exact ih hc
  | binary _ ht _ _ ihp ihq =>
      simp only [List.append_assoc, List.cons_append]
      exact ihp ((ihq hc).cons (by simp [opened?, ht]))
  | unary _ ht _ ih => exact (ih hc).cons (by simp [opened?, ht])
  | item ht => exact hc.cons (opened?_item ht)
  | @list _ p opening closing _ ho hk h =>
      have hopening : opened? opening nested = some nested := by simp [opened?, ho]
      have hclosing : opened? closing nested = some nested := by simp [opened?, hk]
      simpa using (Closes.contents h (hc.cons hclosing)).cons hopening
  | @group _ p opening closing _ ho hk _ ih =>
      have hopening : opened? opening nested = some (nested + 1) := by simp [opened?, ho]
      have hclosing : opened? closing (nested + 1) = some nested := by simp [opened?, hk]
      simpa using (ih (hc.cons hclosing)).cons hopening

/-- A phrase is read as its tree: an operand at once, and any phrase by the loop that takes what
stands in front of the place where the loop goes on. -/
def Reads (room level : Nat) (p : List Token) (e : Expr) : Prop :=
  (level = 6 → ∀ rest, (operand room (p ++ rest)).Yields e rest) ∧
    ∀ min rest, min < level → Stops level rest → ∀ whole tail,
      (climb room min e rest).Yields whole tail →
        (expression room min (p ++ rest)).Yields whole tail

theorem reads_operand (h : ∀ rest, (operand room (p ++ rest)).Yields e rest) :
    Reads room 6 p e :=
  ⟨fun _ => h, fun _ rest _ _ _ _ hc => expression_yields.2 ⟨e, rest, h rest, hc⟩⟩

theorem Reads.expression {level min : Nat} (h : Reads room level p e) (hmin : min < level)
    (hs : Stops min rest) : (expression room min (p ++ rest)).Yields e rest :=
  h.2 min rest hmin (hs.mono (Nat.le_of_lt hmin)) e rest ((climb_yields_of_stops hs).2 ⟨rfl, rfl⟩)

theorem reads_of_derives {level : Nat} (h : Derives room level p e) : Reads room level p e := by
  induction h with
  | tighter hl _ ih =>
      refine ⟨by omega, fun min rest hmin hs whole tail hc => ?_⟩
      exact ih.2 min rest (by omega) (hs.mono (Nat.le_succ _)) whole tail hc
  | @binary _ level p q t op left right hop ht _ _ ihp ihq =>
      obtain ⟨hb, rfl⟩ := mem_operators_iff.1 hop
      have hle := Operator.precedence_le_five hb
      refine ⟨by omega, fun min rest hmin hs whole tail hc => ?_⟩
      have habove : t.operatorAbove? min = some op :=
        Token.operatorAbove?_eq_some_iff.2 ⟨ht, hb, hmin⟩
      have hright : (Parse.expression _ op.precedence (q ++ rest)).Yields right rest :=
        ihq.expression (Nat.lt_succ_self _) hs
      -- the loop goes on behind the right operand, with the tree of both operands in hand
      have hloop := (climb_cons_yields habove).2 ⟨right, rest, hright, hc⟩
      rw [List.append_assoc, List.cons_append]
      exact ihp.2 min _ hmin (stops_of_operator ht (Nat.le_refl _)) whole tail hloop
  | unary hop ht _ ih =>
      refine reads_operand fun rest => ?_
      have hu := mem_frontOperators_iff.1 hop
      exact operand_cons_yields.2 (.inr (.inr (.inr ⟨_, _, ht, hu, ih.1 rfl rest, rfl⟩)))
  | item ht => exact reads_operand fun rest => operand_cons_yields.2 (.inl ⟨ht, rfl⟩)
  | @list _ p opening closing es ho hk h =>
      refine reads_operand fun rest => ?_
      have hitems : (items true (p ++ closing :: rest)).Yields es rest := items_complete h hk
      rw [List.cons_append, List.append_assoc]
      exact operand_cons_yields.2 (.inr (.inl ⟨ho, es, hitems, rfl⟩))
  | @group depth p opening closing e ho hk h ih =>
      refine reads_operand fun rest => ?_
      have hend : Closes 0 (closing :: rest) [] rest := closes_cons.2 (.inl ⟨hk, rfl, rfl, rfl⟩)
      have hcloses : Closes 0 (p ++ closing :: rest) p rest := by
        simpa using Closes.append h hend
      have hstop : Stops 0 [] := by simp [Stops]
      have hinside := ih.expression Nat.zero_lt_one hstop
      rw [List.append_nil] at hinside
      rw [List.cons_append, List.append_assoc]
      exact operand_cons_yields.2 (.inr (.inr (.inl ⟨ho, depth, p, rfl, hcloses, hinside⟩)))

end TemplateExpr.Parse
