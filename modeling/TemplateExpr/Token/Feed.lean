import TemplateExpr.Token.Stream

namespace TemplateExpr

structure Feed where
  ahead : Option Token
  coming : List Token

namespace Feed

def ofTokens (ts : List Token) : Feed := ⟨none, ts⟩

def remaining (f : Feed) : List Token := f.ahead.toList ++ f.coming

def peek (f : Feed) : Option Token × Feed :=
  match f.ahead, f.coming with
  | some t, _ => (some t, f)
  | none, t :: ts => (some t, ⟨some t, ts⟩)
  | none, [] => (none, f)

def atEnd (f : Feed) : Bool × Feed := (f.peek.1.isNone, f.peek.2)

def next (f : Feed) : Except SyntaxError Token × Feed :=
  match f.peek with
  | (none, f) => (.error .endOfInput, f)
  | (some t, f) => (.ok t, { f with ahead := none })

def step (f : Feed) : Option Token × Feed :=
  match f.peek with
  | (none, f) => (none, f)
  | (some _, f) => (f.ahead, { f with ahead := none })

theorem remaining_ofTokens (ts : List Token) : (ofTokens ts).remaining = ts := rfl

theorem peek_cases (f : Feed) :
    (∃ t ts, f.remaining = t :: ts ∧ f.peek = (some t, ⟨some t, ts⟩)) ∨
      f.remaining = [] ∧ f.peek = (none, f) := by
  obtain ⟨_ | t, _ | ⟨u, ts⟩⟩ := f <;> simp [remaining, peek]

theorem remaining_peek (f : Feed) : f.peek.2.remaining = f.remaining := by
  rcases f.peek_cases with ⟨t, ts, h, hpeek⟩ | ⟨h, hpeek⟩
  · rw [hpeek, h]
    rfl
  · rw [hpeek]

theorem next_cases (f : Feed) :
    (∃ t ts, f.remaining = t :: ts ∧ f.next = (.ok t, ⟨none, ts⟩)) ∨
      f.remaining = [] ∧ f.next = (.error .endOfInput, f) := by
  rcases f.peek_cases with ⟨t, ts, h, hpeek⟩ | ⟨h, hpeek⟩
  · exact .inl ⟨t, ts, h, by rw [next, hpeek]⟩
  · exact .inr ⟨h, by rw [next, hpeek]⟩

theorem next_shorter {f : Feed} {t : Token} (h : f.next.1 = .ok t) :
    f.next.2.remaining.length < f.remaining.length := by
  rcases f.next_cases with ⟨u, ts, hf, hnext⟩ | ⟨hf, hnext⟩ <;> rw [hnext] at h ⊢
  · rw [hf]
    exact Nat.lt_succ_self _
  · cases h

theorem step_cases (f : Feed) :
    (∃ t ts, f.remaining = t :: ts ∧ f.step = (some t, ⟨none, ts⟩)) ∨
      f.remaining = [] ∧ f.step = (none, f) := by
  rcases f.peek_cases with ⟨t, ts, h, hpeek⟩ | ⟨h, hpeek⟩
  · exact .inl ⟨t, ts, h, by rw [step, hpeek]⟩
  · exact .inr ⟨h, by rw [step, hpeek]⟩

theorem step_shorter {f : Feed} {t : Token} (h : f.step.1 = some t) :
    f.step.2.remaining.length < f.remaining.length := by
  rcases f.step_cases with ⟨u, ts, hf, hstep⟩ | ⟨hf, hstep⟩ <;> rw [hstep] at h ⊢
  · rw [hf]
    exact Nat.lt_succ_self _
  · cases h

def drain (f : Feed) : List Token × Feed :=
  match _ : f.step.1 with
  | none => ([], f.step.2)
  | some t => (t :: f.step.2.drain.1, f.step.2.drain.2)
termination_by f.remaining.length
decreasing_by all_goals exact step_shorter ‹_›

/-- From a feed to what is left of it, by looking and taking alone, and the tokens that are taken. -/
inductive Reads : Feed → List Token → Feed → Prop
  | done {f : Feed} : Reads f [] f
  | look {f rest : Feed} {taken : List Token} (h : Reads f.peek.2 taken rest) : Reads f taken rest
  | take {f rest : Feed} {t : Token} {taken : List Token} (ht : f.next.1 = .ok t)
      (h : Reads f.next.2 taken rest) : Reads f (t :: taken) rest
  | miss {f rest : Feed} {e : SyntaxError} {taken : List Token} (he : f.next.1 = .error e)
      (h : Reads f.next.2 taken rest) : Reads f taken rest

theorem Reads.append_eq {f rest : Feed} {taken : List Token} (h : Reads f taken rest) :
    taken ++ rest.remaining = f.remaining := by
  induction h with
  | done => rfl
  | @look f _ _ _ ih => rw [ih, remaining_peek]
  | @take f _ t _ ht _ ih =>
      rcases f.next_cases with ⟨u, ts, hf, hnext⟩ | ⟨hf, hnext⟩ <;> rw [hnext] at ht ih
      · cases ht
        rw [List.cons_append, ih, hf]
        rfl
      · cases ht
  | @miss f _ _ _ he _ ih =>
      rcases f.next_cases with ⟨u, ts, hf, hnext⟩ | ⟨hf, hnext⟩ <;> rw [hnext] at he ih
      · cases he
      · exact ih

theorem Reads.trans {f mid rest : Feed} {taken others : List Token} (h : Reads f taken mid)
    (h' : Reads mid others rest) : Reads f (taken ++ others) rest := by
  induction h with
  | done => exact h'
  | look _ ih => exact .look (ih h')
  | take ht _ ih => exact .take ht (ih h')
  | miss he _ ih => exact .miss he (ih h')

theorem Reads.length_le {f rest : Feed} {taken : List Token} (h : Reads f taken rest) :
    rest.remaining.length ≤ f.remaining.length := by
  rw [← h.append_eq, List.length_append]
  exact Nat.le_add_left _ _

/-- The outcome of reading from a feed: a result, the tokens that were taken and what is left. -/
structure Outcome (α : Type) (f : Feed) where
  result : Except SyntaxError α
  taken : List Token
  rest : Feed
  reads : Reads f taken rest

namespace Outcome

variable {α β : Type} {f : Feed}

def done (a : α) (f : Feed) : Outcome α f := ⟨.ok a, [], f, .done⟩

def fail (e : SyntaxError) (f : Feed) : Outcome α f := ⟨.error e, [], f, .done⟩

def map (g : α → β) (o : Outcome α f) : Outcome β f := ⟨o.result.map g, o.taken, o.rest, o.reads⟩

def andThen (o : Outcome α f) (go : α → (rest : Feed) →
    rest.remaining.length ≤ f.remaining.length → Outcome β rest) : Outcome β f :=
  match o.result with
  | .error e => ⟨.error e, o.taken, o.rest, o.reads⟩
  | .ok a =>
    let o' := go a o.rest o.reads.length_le
    ⟨o'.result, o.taken ++ o'.taken, o'.rest, o.reads.trans o'.reads⟩

end Outcome

variable {α : Type}

def looking (f : Feed) (go : Option Token → Outcome α f.peek.2) : Outcome α f :=
  let o := go f.peek.1
  ⟨o.result, o.taken, o.rest, .look o.reads⟩

def taking (f : Feed) (go : (t : Token) → f.next.1 = .ok t → Outcome α f.next.2) : Outcome α f :=
  match h : f.next.1 with
  | .error e => ⟨.error e, [], f.next.2, .miss h .done⟩
  | .ok t =>
    let o := go t h
    ⟨o.result, t :: o.taken, o.rest, .take h o.reads⟩

end Feed

end TemplateExpr
