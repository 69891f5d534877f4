import TemplateExpr.Proofs.Grammar.Reading

namespace TemplateExpr

namespace Reading

variable {α β : Type} {ts us : List Token} {err : SyntaxError}

def Fails (r : Reading α ts) (err : SyntaxError) : Prop := r.result = .error err

@[simp] theorem not_done_fails {a : α} : ¬ (done a ts).Fails err := by
  simp [Fails, done]

@[simp] theorem fail_fails {other : SyntaxError} :
    (fail other ts : Reading α ts).Fails err ↔ other = err := by
  simp [Fails, fail]

@[simp] theorem within_fails {r : Reading α ts} {h : ts.length ≤ us.length} :
    (r.within h).Fails err ↔ r.Fails err := Iff.rfl

@[simp] theorem after_fails {t : Token} {r : Reading α ts} :
    (r.after t).Fails err ↔ r.Fails err := Iff.rfl

@[simp] theorem map_fails {f : α → β} {r : Reading α ts} : (r.map f).Fails err ↔ r.Fails err := by
  cases h : r.result <;> simp [Fails, map, h, Except.map]

theorem andThen_fails {r : Reading α ts}
    {next : α → (rest : List Token) → rest.length ≤ ts.length → Reading β rest} :
    (r.andThen next).Fails err ↔
      r.Fails err ∨ ∃ a mid, ∃ h : mid.length ≤ ts.length, r.Yields a mid ∧
        (next a mid h).Fails err := by
  unfold andThen
  constructor
  · intro h
    split at h
    · rename_i other hr
      obtain rfl : other = err := Except.error.inj h
      exact .inl hr
    · rename_i a ha
      exact .inr ⟨a, r.rest, r.bound, ⟨ha, rfl⟩, h⟩
  · rintro (h | ⟨a, mid, hm, ⟨ha, rfl⟩, hb⟩)
    · split
      · rename_i other hr
        exact congrArg Except.error (Except.error.inj (hr.symm.trans h))
      · rename_i a ha
        cases ha.symm.trans h
    · split
      · rename_i other hr
        cases hr.symm.trans ha
      · rename_i a' ha'
        obtain rfl : a = a' := Except.ok.inj (ha.symm.trans ha')
        exact hb

end Reading

namespace Parse

variable {room min nested : Nat} {t : Token} {ts inner rest : List Token} {left : Expr}
  {err : SyntaxError}

theorem items_nil_fails {expectItem : Bool} :
    (items expectItem []).Fails err ↔ .endOfInput = err := by
  simp [items]

theorem items_true_cons_fails : (items true (t :: ts)).Fails err ↔
    ((∃ e, Grammar.Item t e) ∧ (items false ts).Fails err) ∨
      (t.kind ≠ .squareClose ∧ (∀ e, ¬ Grammar.Item t e) ∧ .blame .listItem t = err) := by
  cases h : t.kind <;> simp [items, Grammar.item_iff, h]

theorem items_false_cons_fails : (items false (t :: ts)).Fails err ↔
    (t.kind = .comma ∧ (items true ts).Fails err) ∨
      (t.kind ≠ .squareClose ∧ t.kind ≠ .comma ∧ .blame .listSeparator t = err) := by
  cases h : t.kind <;> simp [items, h]

theorem enclosed_nil_fails : (enclosed nested []).Fails err ↔ .endOfInput = err := by
  simp [enclosed]

theorem enclosed_cons_fails : (enclosed nested (t :: ts)).Fails err ↔
    (t.kind = .blockEnd ∧ .blame .unbalanced t = err) ∨
      ∃ n, opened? t nested = some n ∧ (enclosed n ts).Fails err := by
  cases h : t.kind
  case roundClose => cases nested <;> simp [enclosed, opened?, h]
  all_goals simp [enclosed, opened?, h]

theorem expression_fails : (expression room min ts).Fails err ↔
    (operand room ts).Fails err ∨
      ∃ left mid, (operand room ts).Yields left mid ∧ (climb room min left mid).Fails err := by
  rw [expression, Reading.andThen_fails]
  refine or_congr_right ⟨?_, ?_⟩
  · rintro ⟨left, mid, _, h⟩
    exact ⟨left, mid, h⟩
  · rintro ⟨left, mid, h⟩
    exact ⟨left, mid, h.1.length_le, h⟩

theorem not_climb_fails_of_stops (h : Stops min ts) : ¬ (climb room min left ts).Fails err := by
  cases ts with
  | nil => simp [climb]
  | cons t ts => simp [climb, h t rfl]

theorem climb_cons_fails {op : Operator} (h : t.operatorAbove? min = some op) :
    (climb room min left (t :: ts)).Fails err ↔
      (expression room op.precedence ts).Fails err ∨
        ∃ right mid, (expression room op.precedence ts).Yields right mid ∧
          (climb room min (.binary op left right) mid).Fails err := by
  rw [climb]
  simp only [h, Reading.after_fails, Reading.andThen_fails]
  refine or_congr_right ⟨?_, ?_⟩
  · rintro ⟨right, mid, _, h⟩
    exact ⟨right, mid, h⟩
  · rintro ⟨right, mid, h⟩
    exact ⟨right, mid, h.1.length_le, h⟩

theorem operand_nil_fails : (operand room []).Fails err ↔ .endOfInput = err := by
  simp [operand]

/-- Why there is nothing between two brackets, although the brackets themselves are there. -/
def InsideFails (inside : Nat) (inner : List Token) (err : SyntaxError) : Prop :=
  (expression inside 0 inner).Fails err ∨
    ∃ e t more, (expression inside 0 inner).Yields e (t :: more) ∧ .blame .inParentheses t = err

def NoOperand (t : Token) : Prop :=
  (∀ e, ¬ Grammar.Item t e) ∧ t.kind ≠ .squareOpen ∧ t.kind ≠ .roundOpen ∧
    ∀ op, t.kind = .operator op → op.isUnary = false

theorem operand_cons_fails : (operand room (t :: ts)).Fails err ↔
    (NoOperand t ∧ .blame .unexpected t = err) ∨
    (t.kind = .squareOpen ∧ (items true ts).Fails err) ∨
    (t.kind = .roundOpen ∧ room = 0 ∧ .blame .tooDeep t = err) ∨
    (t.kind = .roundOpen ∧ ∃ inside, room = inside + 1 ∧ ((enclosed 0 ts).Fails err ∨
      ∃ inner rest, Closes 0 ts inner rest ∧ InsideFails inside inner err)) ∨
    ∃ op, t.kind = .operator op ∧ op.isUnary = true ∧ (operand room ts).Fails err := by
  rw [operand.eq_def]
  simp only []
  cases h : t.kind
  case roundOpen =>
    cases room with
    | zero => simp [NoOperand, h]
    | succ inside =>
        simp only [NoOperand, h, Reading.after_fails, Reading.andThen_fails, Closes, InsideFails,
          Nat.succ.injEq, reduceCtorEq, ne_eq, not_true_eq_false, false_and, and_false, true_and,
          exists_false, false_or, or_false, exists_eq_left']
        refine or_congr_right ⟨?_, ?_⟩
        · rintro ⟨⟨inner, hle⟩, mid, _, hi, hf⟩
          refine ⟨inner, mid, ⟨hle, hi⟩, ?_⟩
          split at hf
          · exact absurd hf Reading.not_done_fails
          · rename_i e other more he hr
            exact .inr ⟨e, other, more, ⟨he, hr⟩, Reading.fail_fails.1 hf⟩
          · rename_i other he
            obtain rfl := Reading.fail_fails.1 hf
            exact .inl he
        · rintro ⟨inner, mid, ⟨hle, hi⟩, hf⟩
          refine ⟨⟨inner, hle⟩, mid, hi.length_le, hi, ?_⟩
          rcases hf with hf | ⟨e, other, more, ⟨he, hr⟩, rfl⟩
          · have hf : (expression inside 0 inner).result = .error err := hf
            simp [hf]
          · simp [he, hr]
  case operator op =>
    cases hu : op.isUnary <;> simp [NoOperand, Grammar.item_iff, h, hu]
  all_goals simp [NoOperand, Grammar.item_iff, h]

theorem parse_fails : (parse ts).Fails err ↔
    (expression maxNesting 0 ts).Fails err ∨
      ∃ e t rest, (expression maxNesting 0 ts).Yields e (t :: rest) ∧ t.kind ≠ .blockEnd ∧
        .blame .afterExpression t = err := by
  unfold parse
  rw [Reading.andThen_fails]
  refine or_congr_right ⟨?_, ?_⟩
  · rintro ⟨e, mid, _, he, hf⟩
    cases mid with
    | nil => simp at hf
    | cons t mid =>
        cases hk : t.kind.isBlockEnd with
        | true => simp [hk] at hf
        | false =>
            refine ⟨e, t, mid, he, ?_, by simpa [hk] using hf⟩
            rw [Ne, ← Token.Kind.isBlockEnd_iff, hk]
            exact Bool.false_ne_true
  · rintro ⟨e, t, rest, he, hk, rfl⟩
    refine ⟨e, t :: rest, he.length_le, he, ?_⟩
    simp [Bool.eq_false_iff.2 (mt Token.Kind.isBlockEnd_iff.1 hk)]

end Parse

end TemplateExpr
