import TemplateExpr.Proofs.Grammar.Acceptance
import TemplateExpr.Proofs.Grammar.Failure

namespace TemplateExpr

/-- The token at which reading has to fail with an error. -/
inductive SyntaxError.Culprit : SyntaxError → Token → Prop
  | blamed {problem : SyntaxProblem} {t : Token} : Culprit (.blame problem t) t
  | closing {t : Token} (h : t.kind = .roundClose) : Culprit .endOfInput t

/-- Either the tokens end before the block does, or they begin with some that nothing acceptable begins
with, the culprit last. -/
inductive Rejected (accepts : List Token → Prop) : SyntaxError → List Token → Prop
  | short {ts : List Token} (ha : ¬ accepts ts) (h : ∀ t ∈ ts, t.kind ≠ .blockEnd) :
      Rejected accepts .endOfInput ts
  | dead {p more : List Token} {t : Token} {err : SyntaxError} (hc : err.Culprit t)
      (h : ∀ us, ¬ accepts (p ++ t :: us)) : Rejected accepts err (p ++ t :: more)

namespace Rejected

variable {accepts whole : List Token → Prop} {err : SyntaxError} {p ts us : List Token} {t : Token}

theorem here (hc : err.Culprit t) (h : ∀ us, ¬ accepts (t :: us)) (more : List Token) :
    Rejected accepts err (t :: more) := dead (p := []) hc h

/-- What is rejected is so behind other tokens too, as long as these are read in the same way whatever
follows them. They may be read with a look at the next token. -/
theorem behind (hr : Rejected accepts err ts) (hp : ∀ t ∈ p, t.kind ≠ .blockEnd)
    (h : ∀ us, us.head? = ts.head? → whole (p ++ us) → accepts us) :
    Rejected whole err (p ++ ts) := by
  cases hr with
  | short ha hts =>
      refine short (fun hw => ha (h ts rfl hw)) fun t ht => ?_
      rcases List.mem_append.1 ht with ht | ht
      · exact hp t ht
      · exact hts t ht
  | @dead q more t _ hc hd =>
      rw [← List.append_assoc]
      refine dead hc fun us hw => hd us (h _ ?_ ?_)
      · cases q <;> rfl
      · rwa [List.append_assoc] at hw

theorem cons (hr : Rejected accepts err ts) (ht : t.kind ≠ .blockEnd)
    (h : ∀ us, whole (t :: us) → accepts us) : Rejected whole err (t :: ts) :=
  hr.behind (p := [t]) (by simpa using ht) fun us _ => h us

theorem blamed {problem : SyntaxProblem} (hr : Rejected accepts (.blame problem t) ts) :
    ∃ p more, ts = p ++ t :: more ∧ ∀ us, ¬ accepts (p ++ t :: us) := by
  cases hr with
  | dead hc h =>
      cases hc
      exact ⟨_, _, rfl, h⟩

theorem culprit_of_concat {closing : Token} (hr : Rejected accepts err (ts ++ [closing]))
    (hts : ∀ t ∈ ts, t.kind ≠ .blockEnd) (hclosing : closing.kind = .blockEnd) :
    (∃ problem, err = .blame problem closing) ∨ ∀ us, ¬ accepts (ts ++ us) := by
  generalize hwhole : ts ++ [closing] = whole at hr
  cases hr with
  | short _ hend =>
      have hmem : closing ∈ whole := by simp [← hwhole]
      exact absurd hclosing (hend closing hmem)
  | @dead p more t _ hc hd =>
      have hlast : t = closing → ∃ problem, err = .blame problem closing := by
        rintro rfl
        cases hc with
        | blamed => exact ⟨_, rfl⟩
        | closing hk => cases hk.symm.trans hclosing
      rcases List.append_eq_append_iff.1 hwhole with ⟨a, rfl, ha⟩ | ⟨c, rfl, hc'⟩
      · cases a with
        | nil => exact .inl (hlast (List.head_eq_of_cons_eq ha).symm)
        | cons _ a => simp at ha
      · cases c with
        | nil => exact .inl (hlast (List.head_eq_of_cons_eq hc'))
        | cons _ c =>
            obtain rfl := List.head_eq_of_cons_eq hc'
            exact .inr fun us => by simpa using hd (c ++ us)

end Rejected

namespace Reading

variable {α : Type} {ts : List Token} {r : Reading α ts} {a b : α} {mid rest : List Token}

theorem Yields.unique (h : r.Yields a mid) (h' : r.Yields b rest) : a = b ∧ mid = rest :=
  ⟨Except.ok.inj (h.1.symm.trans h'.1), h.2.symm.trans h'.2⟩

end Reading

namespace Parse

open Grammar

section

variable {room min nested : Nat} {t : Token} {p q ts us inner rest mid : List Token} {e left : Expr}
  {err : SyntaxError}

/-- The tokens can be read, with or without a rest. -/
def Accepts {α : Type} (read : (ts : List Token) → Reading α ts) (ts : List Token) : Prop :=
  ∃ a rest, (read ts).Yields a rest

theorem items_rejects {expectItem : Bool} (h : (items expectItem ts).Fails err) :
    Rejected (Accepts (items expectItem)) err ts := by
  induction ts generalizing expectItem with
  | nil =>
      obtain rfl := items_nil_fails.1 h
      exact .short (fun ⟨_, _, hy⟩ => not_items_nil_yields hy) (by simp)
  | cons t ts ih =>
      cases expectItem with
      | true =>
          rcases items_true_cons_fails.1 h with ⟨⟨e, he⟩, hf⟩ | ⟨hk, hi, rfl⟩
          · refine (ih hf).cons he.kind_ne_blockEnd ?_
            rintro us ⟨es, rest, hy⟩
            rcases items_true_cons_yields.1 hy with ⟨hk, -, -⟩ | ⟨_, es', -, hy, -⟩
            · cases he <;> simp_all
            · exact ⟨es', rest, hy⟩
          · refine .here .blamed ?_ ts
            rintro us ⟨es, rest, hy⟩
            rcases items_true_cons_yields.1 hy with ⟨hk', -, -⟩ | ⟨e, -, he, -, -⟩
            · exact hk hk'
            · exact hi e he
      | false =>
          rcases items_false_cons_fails.1 h with ⟨hk, hf⟩ | ⟨hk, hc, rfl⟩
          · refine (ih hf).cons (by simp [hk]) ?_
            rintro us ⟨es, rest, hy⟩
            rcases items_false_cons_yields.1 hy with ⟨hk', -, -⟩ | ⟨-, hy⟩
            · simp_all
            · exact ⟨es, rest, hy⟩
          · refine .here .blamed ?_ ts
            rintro us ⟨es, rest, hy⟩
            rcases items_false_cons_yields.1 hy with ⟨hk', -, -⟩ | ⟨hc', -⟩
            · exact hk hk'
            · exact hc hc'

theorem opened?_eq_some_kind {n : Nat} (h : opened? t nested = some n) : t.kind ≠ .blockEnd := by
  intro hk
  simp [opened?, hk] at h

theorem enclosed_rejects (h : (enclosed nested ts).Fails err) :
    Rejected (fun us => ∃ inner rest, Closes nested us inner rest) err ts := by
  induction ts generalizing nested with
  | nil =>
      obtain rfl := enclosed_nil_fails.1 h
      exact .short (fun ⟨_, _, hc⟩ => not_closes_nil hc) (by simp)
  | cons t ts ih =>
      rcases enclosed_cons_fails.1 h with ⟨hk, rfl⟩ | ⟨n, hn, hf⟩
      · refine .here .blamed ?_ ts
        rintro us ⟨inner, rest, hc⟩
        rcases closes_cons.1 hc with ⟨hk', -⟩ | ⟨n, -, hn, -⟩
        · simp_all
        · exact opened?_eq_some_kind hn hk
      · refine (ih hf).cons (opened?_eq_some_kind hn) ?_
        rintro us ⟨inner, rest, hc⟩
        rcases closes_cons.1 hc with ⟨hk, rfl, -⟩ | ⟨m, inner', hm, hc, -⟩
        · simp [opened?, hk] at hn
        · obtain rfl : n = m := Option.some.inj (hn.symm.trans hm)
          exact ⟨inner', rest, hc⟩

/-- The brackets that are open behind the tokens read so far do not depend on what follows. -/
theorem Closes.through (h : Closes nested (p ++ ts) (p ++ inner) rest) : ∃ n, Closes n ts inner rest ∧
    ∀ us other more, Closes nested (p ++ us) other more →
      ∃ inner', other = p ++ inner' ∧ Closes n us inner' more := by
  induction p generalizing nested with
  | nil => exact ⟨nested, h, fun us other more h => ⟨other, rfl, h⟩⟩
  | cons t p ih =>
      rcases closes_cons.1 h with ⟨-, -, hinner, -⟩ | ⟨n, inner', hn, hc, hinner⟩
      · simp at hinner
      · obtain rfl : p ++ inner = inner' := List.tail_eq_of_cons_eq hinner
        obtain ⟨m, hm, hp⟩ := ih hc
        refine ⟨m, hm, fun us other more hother => ?_⟩
        rcases closes_cons.1 hother with ⟨hk, rfl, -⟩ | ⟨n', inner', hn', hc', rfl⟩
        · simp [opened?, hk] at hn
        · obtain rfl : n = n' := Option.some.inj (hn.symm.trans hn')
          obtain ⟨inner', rfl, h'⟩ := hp us _ _ hc'
          exact ⟨inner', rfl, h'⟩

theorem closes_closing {closing : Token} {n : Nat} (h : Closes n (closing :: ts) [] mid)
    (h' : Closes n (closing :: us) inner rest) : inner = [] := by
  rcases closes_cons.1 h with ⟨hk, rfl, -, -⟩ | ⟨_, _, _, _, hinner⟩
  · rcases closes_cons.1 h' with ⟨-, -, rfl, -⟩ | ⟨_, _, hn, _, _⟩
    · rfl
    · simp [opened?, hk] at hn
  · cases hinner

theorem expression_yields_append (hmin : min ≤ 5) (h : (expression room min ts).Yields e rest) :
    ∃ p, ts = p ++ rest ∧ (∀ t ∈ p, t.kind ≠ .blockEnd) ∧
      ∀ us, us.head? = rest.head? → (expression room min (p ++ us)).Yields e us := by
  obtain ⟨p, rfl, hd, hs⟩ := expression_sound hmin h
  refine ⟨p, rfl, hd.kind_ne_blockEnd, fun us hus => ?_⟩
  apply (reads_of_derives hd).expression (Nat.lt_succ_self min)
  rwa [Stops, hus]

theorem operand_yields_append (h : (operand room ts).Yields e rest) :
    ∃ p, ts = p ++ rest ∧ (∀ t ∈ p, t.kind ≠ .blockEnd) ∧
      ∀ us, (operand room (p ++ us)).Yields e us := by
  obtain ⟨p, rfl, hd⟩ := operand_sound h
  exact ⟨p, rfl, hd.kind_ne_blockEnd, (reads_of_derives hd).1 rfl⟩

def Whole (room : Nat) (ts : List Token) : Prop := ∃ e, (expression room 0 ts).Yields e []

theorem operand_cons_accepts (h : Accepts (operand room) (t :: ts)) :
    (∃ e, Item t e) ∨ (t.kind = .squareOpen ∧ Accepts (items true) ts) ∨
      (t.kind = .roundOpen ∧ ∃ inside, room = inside + 1 ∧
        ∃ inner rest, Closes 0 ts inner rest ∧ Whole inside inner) ∨
      ∃ op, t.kind = .operator op ∧ op.isUnary = true ∧ Accepts (operand room) ts := by
  obtain ⟨e, rest, hy⟩ := h
  rcases operand_cons_yields.1 hy with
    ⟨hi, -⟩ | ⟨hk, es, hy, -⟩ | ⟨hk, inside, inner, hroom, hc, he⟩ | ⟨op, a, hk, hu, hy, -⟩
  · exact .inl ⟨e, hi⟩
  · exact .inr (.inl ⟨hk, es, rest, hy⟩)
  · exact .inr (.inr (.inl ⟨hk, inside, hroom, inner, rest, hc, e, he⟩))
  · exact .inr (.inr (.inr ⟨op, hk, hu, a, rest, hy⟩))

theorem operand_roundOpen_accepts {inside : Nat} (hk : t.kind = .roundOpen)
    (h : Accepts (operand (inside + 1)) (t :: ts)) :
    ∃ inner rest, Closes 0 ts inner rest ∧ Whole inside inner := by
  simpa [item_iff, hk] using operand_cons_accepts h

theorem noOperand_rejects (hn : NoOperand t) : ¬ Accepts (operand room) (t :: ts) := by
  intro h
  obtain ⟨hi, hs, hr, hu⟩ := hn
  rcases operand_cons_accepts h with ⟨e, he⟩ | ⟨hk, -⟩ | ⟨hk, -⟩ | ⟨op, hk, hop, -⟩
  · exact hi e he
  · exact hs hk
  · exact hr hk
  · cases hop.symm.trans (hu op hk)

theorem group_rejects {inside : Nat} (ho : t.kind = .roundOpen) (hc : Closes 0 ts inner rest)
    (h : Rejected (Whole inside) err inner) :
    Rejected (Accepts (operand (inside + 1))) err (t :: ts) := by
  obtain ⟨closing, hk, rfl⟩ := hc.eq_append
  cases h with
  | short hi _ =>
      refine .dead (p := t :: inner) (.closing hk) fun us hy => ?_
      obtain ⟨other, more, hother, hw⟩ := operand_roundOpen_accepts ho hy
      have hc : Closes 0 (inner ++ closing :: rest) (inner ++ []) rest := by rwa [List.append_nil]
      obtain ⟨n, hn, hp⟩ := hc.through
      obtain ⟨inner', rfl, hn'⟩ := hp _ _ _ hother
      obtain rfl := closes_closing hn hn'
      rw [List.append_nil] at hw
      exact hi hw
  | @dead p more culprit _ hculprit hd =>
      have hc : Closes 0 ((p ++ [culprit]) ++ (more ++ closing :: rest)) ((p ++ [culprit]) ++ more)
          rest := by simpa using hc
      obtain ⟨n, -, hp⟩ := hc.through
      have hdead : ∀ us, ¬ Accepts (operand (inside + 1)) (t :: p ++ culprit :: us) := by
        intro us hy
        obtain ⟨other, rest', hother, hw⟩ := operand_roundOpen_accepts ho hy
        obtain ⟨inner', rfl, -⟩ := hp us _ _ (by simpa using hother)
        exact hd inner' (by simpa using hw)
      have hrejected : Rejected (Accepts (operand (inside + 1))) err
          (t :: p ++ culprit :: (more ++ closing :: rest)) := .dead hculprit hdead
      simpa using hrejected

theorem insideFails_rejects {inside : Nat}
    (hr : (expression inside 0 ts).Fails err → Rejected (Accepts (expression inside 0)) err ts)
    (h : InsideFails inside ts err) : Rejected (Whole inside) err ts := by
  rcases h with h | ⟨e, t, more, he, rfl⟩
  · exact (hr h).behind (p := []) (by simp) fun us _ ⟨e, he⟩ => ⟨e, [], he⟩
  · obtain ⟨p, rfl, -, hp⟩ := expression_yields_append (Nat.zero_le 5) he
    refine .dead .blamed fun us ⟨e', he'⟩ => ?_
    have hrest := ((hp (t :: us) rfl).unique he').2
    cases hrest

end

mutual

theorem expression_rejects {room min : Nat} {ts : List Token} {err : SyntaxError} (hmin : min ≤ 5)
    (h : (expression room min ts).Fails err) : Rejected (Accepts (expression room min)) err ts := by
  rcases expression_fails.1 h with hf | ⟨left, mid, hl, hf⟩
  · refine (operand_rejects hf).behind (p := []) (by simp) fun us _ ⟨e, rest, he⟩ => ?_
    obtain ⟨left, mid, hl, -⟩ := expression_yields.1 he
    exact ⟨left, mid, hl⟩
  · have hlength := hl.length_le
    obtain ⟨p, hts, hp, hread⟩ := operand_yields_append hl
    rw [hts]
    refine (climb_rejects hmin hf).behind hp fun us _ ⟨e, rest, he⟩ => ?_
    obtain ⟨left', mid', hl', hc⟩ := expression_yields.1 he
    obtain ⟨rfl, rfl⟩ := (hread us).unique hl'
    exact ⟨e, rest, hc⟩
termination_by 2 * ts.length + 1
decreasing_by all_goals omega

theorem climb_rejects {room min : Nat} {left : Expr} {ts : List Token} {err : SyntaxError}
    (hmin : min ≤ 5) (h : (climb room min left ts).Fails err) :
    Rejected (Accepts (climb room min left)) err ts := by
  match ts with
  | [] => exact absurd h (not_climb_fails_of_stops (by simp [Stops]))
  | t :: ts =>
      cases ht : t.operatorAbove? min with
      | none => exact absurd h (not_climb_fails_of_stops (by simpa [Stops] using ht))
      | some op =>
          obtain ⟨hk, hb, -⟩ := Token.operatorAbove?_eq_some_iff.1 ht
          have hle := Operator.precedence_le_five hb
          have hnotEnd : t.kind ≠ .blockEnd := by simp [hk]
          rcases (climb_cons_fails ht).1 h with hf | ⟨right, mid, hr, hf⟩
          · refine (expression_rejects hle hf).cons hnotEnd fun us ⟨e, rest, he⟩ => ?_
            obtain ⟨right, mid, hr, -⟩ := (climb_cons_yields ht).1 he
            exact ⟨right, mid, hr⟩
          · have hlength := hr.length_le
            obtain ⟨p, hts, hp, hread⟩ := expression_yields_append hle hr
            rw [hts, ← List.cons_append]
            refine (climb_rejects hmin hf).behind (by simpa [hnotEnd] using hp) ?_
            rintro us hus ⟨e, rest, he⟩
            obtain ⟨right', mid', hr', hc⟩ := (climb_cons_yields ht).1 he
            obtain ⟨rfl, rfl⟩ := (hread us hus).unique hr'
            exact ⟨e, rest, hc⟩
termination_by 2 * ts.length
decreasing_by all_goals simp only [List.length_cons]; omega

theorem operand_rejects {room : Nat} {ts : List Token} {err : SyntaxError}
    (h : (operand room ts).Fails err) : Rejected (Accepts (operand room)) err ts := by
  match ts with
  | [] =>
      obtain rfl := operand_nil_fails.1 h
      exact .short (fun ⟨_, _, hy⟩ => not_operand_nil_yields hy) (by simp)
  | t :: ts =>
      rcases operand_cons_fails.1 h with
        ⟨hn, rfl⟩ | ⟨hk, hf⟩ | ⟨hk, rfl, rfl⟩ | ⟨hk, inside, rfl, hf | ⟨inner, rest, hc, hf⟩⟩ |
          ⟨op, hk, hu, hf⟩
      · exact .here .blamed (fun us => noOperand_rejects hn) ts
      · refine (items_rejects hf).cons (by simp [hk]) fun us hy => ?_
        simpa [item_iff, hk] using operand_cons_accepts hy
      · refine .here .blamed (fun us hy => ?_) ts
        simpa [item_iff, hk] using operand_cons_accepts hy
      · refine (enclosed_rejects hf).cons (by simp [hk]) fun us hy => ?_
        obtain ⟨inner, rest, hc, -⟩ := operand_roundOpen_accepts hk hy
        exact ⟨inner, rest, hc⟩
      · have hlength := hc.1
        exact group_rejects hk hc (insideFails_rejects (expression_rejects (Nat.zero_le 5)) hf)
      · refine (operand_rejects hf).cons (by simp [hk]) fun us hy => ?_
        simpa [item_iff, hk, hu] using operand_cons_accepts hy
termination_by 2 * ts.length
decreasing_by all_goals simp only [List.length_cons]; omega

end

theorem parse_rejects {ts : List Token} {err : SyntaxError} (h : (parse ts).Fails err) :
    Rejected (Accepts parse) err ts := by
  rcases parse_fails.1 h with hf | ⟨e, t, rest, he, hk, rfl⟩
  · refine (expression_rejects (Nat.zero_le 5) hf).behind (p := []) (by simp) ?_
    rintro us - ⟨e, rest, hy⟩
    exact ⟨e, rest, (parse_yields.1 hy).1⟩
  · obtain ⟨p, rfl, -, hp⟩ := expression_yields_append (Nat.zero_le 5) he
    refine .dead .blamed fun us ⟨e', rest', hy⟩ => hk ?_
    obtain ⟨hy, hend⟩ := parse_yields.1 hy
    obtain ⟨-, rfl⟩ := (hp (t :: us) rfl).unique hy
    exact hend t rfl

theorem parse_yields_of_concat {p rest : List Token} {closing : Token} {e : Expr}
    (h : (parse (p ++ [closing])).Yields e rest) (hp : ∀ t ∈ p, t.kind ≠ .blockEnd)
    (hclosing : closing.kind = .blockEnd) : (parse p).Yields e [] := by
  obtain ⟨q, hq, hend, hd⟩ := parse_yields_iff.1 h
  have hread : (parse q).Yields e [] :=
    parse_yields_iff.2 ⟨q, (List.append_nil q).symm, by simp [AtEnd], hd⟩
  rcases List.append_eq_append_iff.1 hq with ⟨behind, rfl, hb⟩ | ⟨behind, rfl, rfl⟩
  · cases behind with
    | nil => rwa [List.append_nil] at hread
    | cons t behind =>
        -- the phrase would go beyond the end of the block
        obtain rfl : closing = t := List.head_eq_of_cons_eq hb
        exact absurd hclosing (hd.kind_ne_blockEnd closing (by simp))
  · cases behind with
    | nil => rwa [List.append_nil]
    | cons t behind => exact absurd (hend t rfl) (hp t (by simp))

end Parse

open Parse

/-- A token is blamed only if no tokens that begin with those up to it are an expression. So the
beginning of an expression is one itself or ends too early, and then the end of the block is to blame
where there is one. -/
theorem parse_blame_excludes_continuations :
    (∀ ts problem t, (TokenStream.parse ⟨ts⟩).1 = .error (.blame problem t) →
      ∃ k, ts[k]? = some t ∧ ∀ us, us.take (k + 1) = ts.take (k + 1) →
        ∀ e, (TokenStream.parse ⟨us⟩).1 ≠ .ok e) ∧
    ∀ p q whole, (TokenStream.parse ⟨p ++ q⟩).1 = .ok whole →
      ((∃ e, (TokenStream.parse ⟨p⟩).1 = .ok e) ∨
        (TokenStream.parse ⟨p⟩).1 = .error .endOfInput) ∧
      ((∀ e, (TokenStream.parse ⟨p⟩).1 ≠ .ok e) → (∀ t ∈ p, t.kind ≠ .blockEnd) →
        ∀ closing, closing.kind = .blockEnd →
          ∃ problem, (TokenStream.parse ⟨p ++ [closing]⟩).1 = .error (.blame problem closing)) := by
  have haccepts : ∀ ts e, (TokenStream.parse ⟨ts⟩).1 = .ok e → Accepts parse ts :=
    fun ts e h => ⟨e, _, h, rfl⟩
  refine ⟨fun ts problem t h => ?_, fun p q whole h => ⟨?_, fun hnot hp closing hclosing => ?_⟩⟩
  · obtain ⟨p, more, rfl, hd⟩ := (parse_rejects h).blamed
    refine ⟨p.length, by simp, fun us hus e he => ?_⟩
    have htake : us.take (p.length + 1) = p ++ [t] := by
      rw [hus, List.take_length_add_append, List.take_succ_cons, List.take_zero]
    have hsplit := List.take_append_drop (p.length + 1) us
    rw [htake, List.append_assoc, List.singleton_append] at hsplit
    exact hd _ (hsplit ▸ haccepts us e he)
  · cases hr : (TokenStream.parse ⟨p⟩).1 with
    | ok e => exact .inl ⟨e, rfl⟩
    | error err =>
        cases parse_rejects hr with
        | short => exact .inr rfl
        | @dead p' more _ _ _ hd =>
            refine absurd (haccepts _ _ h) ?_
            simpa using hd (more ++ q)
  · cases hr : (TokenStream.parse ⟨p ++ [closing]⟩).1 with
    | ok e =>
        have hread := parse_yields_of_concat ⟨hr, rfl⟩ hp hclosing
        exact absurd hread.1 (hnot e)
    | error err =>
        rcases (parse_rejects hr).culprit_of_concat hp hclosing with ⟨problem, rfl⟩ | hd
        · exact ⟨problem, rfl⟩
        · exact absurd (haccepts _ _ h) (hd q)

theorem parse_blame_excludes_continuations_unclosed :
    let opening : Token := ⟨.roundOpen, "(", ⟨1, 1, 0⟩⟩
    let one : Token := ⟨.value (.integer 1), "1", ⟨1, 2, 1⟩⟩
    let closing : Token := ⟨.roundClose, ")", ⟨1, 3, 2⟩⟩
    let blockEnd : Token := ⟨.blockEnd, "%>", ⟨1, 3, 2⟩⟩
    (TokenStream.parse ⟨[opening, one] ++ [closing]⟩).1 = .ok (.constant (.integer 1)) ∧
      (TokenStream.parse ⟨[opening, one]⟩).1 = .error .endOfInput ∧
      ∃ problem, (TokenStream.parse ⟨[opening, one] ++ [blockEnd]⟩).1 =
        .error (.blame problem blockEnd) := by
  intro opening one closing blockEnd
  have hwhole : (TokenStream.parse ⟨[opening, one] ++ [closing]⟩).1 =
      .ok (.constant (.integer 1)) := by cbv
  have hshort : (TokenStream.parse ⟨[opening, one]⟩).1 = .error .endOfInput := by cbv
  have hnot : ∀ e, (TokenStream.parse ⟨[opening, one]⟩).1 ≠ .ok e := by
    intro e he
    cases hshort.symm.trans he
  have hnotEnd : ∀ t ∈ [opening, one], t.kind ≠ .blockEnd := by
    simp [opening, one]
  obtain ⟨-, hblame⟩ := parse_blame_excludes_continuations.2 _ [closing] _ hwhole
  exact ⟨hwhole, hshort, hblame hnot hnotEnd blockEnd rfl⟩

end TemplateExpr
