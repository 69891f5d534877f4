import TemplateExpr.Expr.Parse
import TemplateExpr.Proofs.Grammar.Phrase

namespace TemplateExpr

namespace Reading

variable {α β : Type} {ts us : List Token}

def Yields (r : Reading α ts) (a : α) (rest : List Token) : Prop := r.result = .ok a ∧ r.rest = rest

theorem Yields.length_le {r : Reading α ts} {a : α} {rest : List Token} (h : r.Yields a rest) :
    rest.length ≤ ts.length := h.2 ▸ r.bound

@[simp] theorem done_yields {a b : α} {rest : List Token} :
    (done a ts).Yields b rest ↔ a = b ∧ ts = rest := by
  simp [Yields, done]

@[simp] theorem not_fail_yields {e : SyntaxError} {a : α} {rest : List Token} :
    ¬ (fail e ts : Reading α ts).Yields a rest := by
  simp [Yields, fail]

@[simp] theorem within_yields {r : Reading α ts} {h : ts.length ≤ us.length} {a : α}
    {rest : List Token} : (r.within h).Yields a rest ↔ r.Yields a rest := Iff.rfl

@[simp] theorem after_yields {t : Token} {r : Reading α ts} {a : α} {rest : List Token} :
    (r.after t).Yields a rest ↔ r.Yields a rest := Iff.rfl

@[simp] theorem map_yields {f : α → β} {r : Reading α ts} {b : β} {rest : List Token} :
    (r.map f).Yields b rest ↔ ∃ a, r.Yields a rest ∧ f a = b := by
  cases h : r.result with
  | error e => simp [Yields, map, h, Except.map]
  | ok a =>
      simp only [Yields, map, h, Except.map, Except.ok.injEq]
      constructor
      · rintro ⟨hb, hr⟩
        exact ⟨a, ⟨rfl, hr⟩, hb⟩
      · rintro ⟨_, ⟨rfl, hr⟩, hb⟩
        exact ⟨hb, hr⟩

theorem andThen_yields {r : Reading α ts}
    {next : α → (rest : List Token) → rest.length ≤ ts.length → Reading β rest} {b : β}
    {rest : List Token} :
    (r.andThen next).Yields b rest ↔
      ∃ a mid, ∃ h : mid.length ≤ ts.length, r.Yields a mid ∧ (next a mid h).Yields b rest := by
  unfold andThen
  constructor
  · intro h
    split at h
    · exact absurd h.1 (by simp)
    · rename_i a ha
      exact ⟨a, r.rest, r.bound, ⟨ha, rfl⟩, h⟩
  · rintro ⟨a, mid, hm, ⟨ha, rfl⟩, hb⟩
    split
    · simp_all
    · rename_i a' ha'
      obtain rfl : a = a' := Except.ok.inj (ha.symm.trans ha')
      exact hb

end Reading

theorem Token.operatorAbove?_eq_some_iff {min : Nat} {t : Token} {op : Operator} :
    t.operatorAbove? min = some op ↔
      t.kind = .operator op ∧ op.isBinary = true ∧ min < op.precedence := by
  unfold operatorAbove?
  split
  · rename_i other h
    by_cases ho : other.isBinary = true ∧ min < other.precedence
    · simp only [ho, h, Bool.and_self, decide_true, if_true, Option.some.injEq,
        Token.Kind.operator.injEq]
      constructor
      · rintro rfl
        exact ⟨rfl, ho⟩
      · exact And.left
    · simp only [h, Bool.and_eq_true, decide_eq_true_eq, ho, if_false, Token.Kind.operator.injEq]
      constructor
      · simp
      · rintro ⟨rfl, hb⟩
        exact absurd hb ho
  · rename_i h
    constructor
    · simp
    · exact fun he => absurd he.1 (h op)

namespace Parse

/-- What follows does not begin with an operator that binds more tightly than `min`. -/
def Stops (min : Nat) (rest : List Token) : Prop := ∀ t ∈ rest.head?, t.operatorAbove? min = none

theorem Stops.mono {min other : Nat} {rest : List Token} (h : Stops min rest)
    (hle : min ≤ other) : Stops other rest := by
  intro t ht
  have hn := h t ht
  rw [Option.eq_none_iff_forall_ne_some] at hn ⊢
  intro op ho
  rw [Token.operatorAbove?_eq_some_iff] at ho
  exact hn op (Token.operatorAbove?_eq_some_iff.2 ⟨ho.1, ho.2.1, by omega⟩)

theorem stops_of_operator {min : Nat} {t : Token} {ts : List Token} {op : Operator}
    (ht : t.kind = .operator op) (hle : op.precedence ≤ min) : Stops min (t :: ts) := by
  intro t' ht'
  obtain rfl : t = t' := by simpa using ht'
  rw [Option.eq_none_iff_forall_ne_some]
  intro other ho
  obtain ⟨hk, -, hlt⟩ := Token.operatorAbove?_eq_some_iff.1 ho
  obtain rfl : op = other := by simpa [ht] using hk
  omega

theorem stops_of_five_le {min : Nat} (h : 5 ≤ min) (rest : List Token) : Stops min rest := by
  intro t _
  rw [Option.eq_none_iff_forall_ne_some]
  intro op ho
  rw [Token.operatorAbove?_eq_some_iff] at ho
  have hle := Operator.precedence_le_five ho.2.1
  omega

def AtEnd (rest : List Token) : Prop := ∀ t ∈ rest.head?, t.kind = .blockEnd

theorem AtEnd.stops {rest : List Token} (h : AtEnd rest) : Stops 0 rest := by
  intro t ht
  simp [Token.operatorAbove?, h t ht]

variable {room min nested : Nat} {t : Token} {ts rest inner : List Token} {e left : Expr}

theorem not_items_nil_yields {expectItem : Bool} {es : List Expr} :
    ¬ (items expectItem []).Yields es rest := by
  simp [items]

theorem items_true_cons_yields {es : List Expr} :
    (items true (t :: ts)).Yields es rest ↔
      (t.kind = .squareClose ∧ [] = es ∧ ts = rest) ∨
      ∃ e es', Grammar.Item t e ∧ (items false ts).Yields es' rest ∧ e :: es' = es := by
  cases h : t.kind <;> simp [items, Grammar.item_iff, h]

theorem items_false_cons_yields {es : List Expr} :
    (items false (t :: ts)).Yields es rest ↔
      (t.kind = .squareClose ∧ [] = es ∧ ts = rest) ∨
      (t.kind = .comma ∧ (items true ts).Yields es rest) := by
  cases h : t.kind <;> simp [items, h]

def opened? (t : Token) (nested : Nat) : Option Nat :=
  match t.kind, nested with
  | .blockEnd, _ => none
  | .roundOpen, nested => some (nested + 1)
  | .roundClose, 0 => none
  | .roundClose, nested + 1 => some nested
  | _, nested => some nested

/-- The bracket that closes the first one of `nested + 1` open ones stands between `inner` and
`rest`. -/
def Closes (nested : Nat) (ts inner rest : List Token) : Prop :=
  ∃ h : inner.length ≤ ts.length, (enclosed nested ts).Yields ⟨inner, h⟩ rest

theorem not_closes_nil : ¬ Closes nested [] inner rest := by
  simp [Closes, enclosed]

theorem take_yields : (∃ h : inner.length ≤ (t :: ts).length,
      (((enclosed nested ts).map fun i => (⟨t :: i.1, Nat.succ_le_succ i.2⟩ : Enclosed (t :: ts))).after
        t).Yields ⟨inner, h⟩ rest) ↔
      ∃ inner', Closes nested ts inner' rest ∧ inner = t :: inner' := by
  simp only [Reading.after_yields, Reading.map_yields, Subtype.mk.injEq]
  constructor
  · rintro ⟨_, ⟨inner', h⟩, hy, rfl⟩
    exact ⟨inner', ⟨h, hy⟩, rfl⟩
  · rintro ⟨inner', ⟨h, hy⟩, rfl⟩
    exact ⟨Nat.succ_le_succ h, ⟨inner', h⟩, hy, rfl⟩

theorem closes_cons : Closes nested (t :: ts) inner rest ↔
    (t.kind = .roundClose ∧ nested = 0 ∧ inner = [] ∧ ts = rest) ∨
      ∃ n inner', opened? t nested = some n ∧ Closes n ts inner' rest ∧ inner = t :: inner' := by
  cases h : t.kind
  case blockEnd => simp [Closes, opened?, enclosed, h]
  case roundClose =>
    cases nested with
    | zero => simp +contextual [Closes, opened?, enclosed, h, eq_comm]
    | succ n => simpa [opened?, h, Closes, enclosed] using take_yields
  all_goals simpa [opened?, h, Closes, enclosed] using take_yields

theorem expression_yields :
    (expression room min ts).Yields e rest ↔
      ∃ left mid, (operand room ts).Yields left mid ∧ (climb room min left mid).Yields e rest := by
  rw [expression, Reading.andThen_yields]
  constructor
  · rintro ⟨left, mid, _, h⟩
    exact ⟨left, mid, h⟩
  · rintro ⟨left, mid, h⟩
    exact ⟨left, mid, h.1.length_le, h⟩

theorem climb_yields_of_stops (h : Stops min ts) :
    (climb room min left ts).Yields e rest ↔ left = e ∧ ts = rest := by
  cases ts with
  | nil => simp [climb]
  | cons t ts => simp [climb, h t rfl]

theorem climb_cons_yields {op : Operator} (h : t.operatorAbove? min = some op) :
    (climb room min left (t :: ts)).Yields e rest ↔
      ∃ right mid, (expression room op.precedence ts).Yields right mid ∧
        (climb room min (.binary op left right) mid).Yields e rest := by
  rw [climb]
  simp only [h, Reading.after_yields, Reading.andThen_yields]
  constructor
  · rintro ⟨right, mid, _, h⟩
    exact ⟨right, mid, h⟩
  · rintro ⟨right, mid, h⟩
    exact ⟨right, mid, h.1.length_le, h⟩

theorem not_operand_nil_yields : ¬ (operand room []).Yields e rest := by
  simp [operand]

theorem operand_cons_yields :
    (operand room (t :: ts)).Yields e rest ↔
      (Grammar.Item t e ∧ ts = rest) ∨
      (t.kind = .squareOpen ∧ ∃ es, (items true ts).Yields es rest ∧ .list es = e) ∨
      (t.kind = .roundOpen ∧ ∃ inside inner, room = inside + 1 ∧ Closes 0 ts inner rest ∧
        (expression inside 0 inner).Yields e []) ∨
      ∃ op a, t.kind = .operator op ∧ op.isUnary = true ∧ (operand room ts).Yields a rest ∧
        .unary op a = e := by
  rw [operand.eq_def]
  simp only []
  cases h : t.kind
  case roundOpen =>
    cases room with
    | zero => simp [Grammar.item_iff, h]
    | succ inside =>
        simp only [Grammar.item_iff, h, Reading.after_yields, Reading.andThen_yields, Closes,
          Nat.succ.injEq, reduceCtorEq, false_and, exists_false, true_and, false_or, or_false]
        constructor
        · rintro ⟨⟨inner, hle⟩, mid, _, hi, he⟩
          split at he
          · rename_i a ha hr
            obtain ⟨rfl, rfl⟩ := Reading.done_yields.1 he
            exact ⟨inside, inner, rfl, ⟨hle, hi⟩, ha, hr⟩
          · exact absurd he Reading.not_fail_yields
          · exact absurd he Reading.not_fail_yields
        · rintro ⟨_, inner, rfl, ⟨hle, hi⟩, ha, hr⟩
          refine ⟨⟨inner, hle⟩, rest, hi.length_le, hi, ?_⟩
          split <;> simp_all
  case operator op =>
    cases hu : op.isUnary <;> simp [Grammar.item_iff, h, hu]
  all_goals simp [Grammar.item_iff, h]

theorem parse_yields :
    (parse ts).Yields e rest ↔ (expression maxNesting 0 ts).Yields e rest ∧ AtEnd rest := by
  unfold parse
  rw [Reading.andThen_yields]
  constructor
  · rintro ⟨a, mid, _, ha, he⟩
    cases mid with
    | nil =>
        obtain ⟨rfl, rfl⟩ := Reading.done_yields.1 he
        exact ⟨ha, by simp [AtEnd]⟩
    | cons t mid =>
        cases hk : t.kind.isBlockEnd with
        | false => simp [hk] at he
        | true =>
            simp only [hk, if_true, Reading.done_yields] at he
            obtain ⟨rfl, rfl⟩ := he
            exact ⟨ha, by simpa [AtEnd] using Token.Kind.isBlockEnd_iff.1 hk⟩
  · rintro ⟨ha, hend⟩
    refine ⟨e, rest, ha.length_le, ha, ?_⟩
    cases rest with
    | nil => simp
    | cons t rest => simp [Token.Kind.isBlockEnd_iff.2 (hend t rfl)]

end Parse

end TemplateExpr
