import TemplateExpr.Proofs.Grammar.Acceptance
import TemplateExpr.Proofs.Grammar.Feeding

namespace TemplateExpr

inductive Access where
  | peek
  | next
  | atEnd
  | step
  | parse

inductive Answer where
  | seen (t : Option Token)
  | demanded (r : Except SyntaxError Token)
  | ended (b : Bool)
  | stepped (t : Option Token)
  | parsed (r : Except SyntaxError Expr)

/-- The answer of a cursor that is nothing but the tokens that remain, and what it is afterwards. -/
def TokenStream.access (s : TokenStream) : Access → Answer × TokenStream
  | .peek => (.seen s.peek?, s)
  | .next => (.demanded s.next.1, s.next.2)
  | .atEnd => (.ended s.atEnd, s)
  | .step => (.stepped s.peek?, s.next.2)
  | .parse => (.parsed s.parse.1, s.parse.2)

def TokenStream.answers (s : TokenStream) : List Access → List Answer
  | [] => []
  | a :: as => (s.access a).1 :: (s.access a).2.answers as

namespace Feed

/-- An answer, the tokens that are handed out with it or used up for it, and the feed afterwards. -/
structure Reply where
  answer : Answer
  handed : List Token
  rest : Feed

def access (f : Feed) : Access → Reply
  | .peek => ⟨.seen f.peek.1, [], f.peek.2⟩
  | .next => ⟨.demanded f.next.1, f.next.1.toOption.toList, f.next.2⟩
  | .atEnd => ⟨.ended f.atEnd.1, [], f.atEnd.2⟩
  | .step => ⟨.stepped f.step.1, f.step.1.toList, f.step.2⟩
  | .parse => ⟨.parsed f.parse.result, f.parse.taken, f.parse.rest⟩

structure Run where
  answers : List Answer
  handed : List Token
  rest : Feed

def run (f : Feed) : List Access → Run
  | [] => ⟨[], [], f⟩
  | a :: as =>
    let r := f.access a
    let later := r.rest.run as
    ⟨r.answer :: later.answers, r.handed ++ later.handed, later.rest⟩

variable {f g : Feed} {e : Expr}

theorem access_append (f : Feed) (a : Access) :
    (f.access a).handed ++ (f.access a).rest.remaining = f.remaining := by
  cases a with
  | peek | atEnd => exact remaining_peek f
  | next =>
      rcases f.next_cases with ⟨t, ts, hf, hnext⟩ | ⟨hf, hnext⟩ <;> rw [access, hnext, hf] <;> rfl
  | step =>
      rcases f.step_cases with ⟨t, ts, hf, hstep⟩ | ⟨hf, hstep⟩ <;> rw [access, hstep, hf] <;> rfl
  | parse => exact f.parse.reads.append_eq

theorem parse_eq (f : Feed) : f.parse.result = (TemplateExpr.parse f.remaining).result ∧
    f.parse.rest.remaining = (TemplateExpr.parse f.remaining).rest := by
  obtain ⟨hresult, hrest⟩ := parse_mirrors (f := f) rfl
  refine ⟨?_, hrest⟩
  generalize f.parse.result = result, (TemplateExpr.parse f.remaining).result = result' at hresult
  cases hresult with
  | error h | ok h => rw [h]

/-- To one access a feed is a cursor over the tokens that remain. -/
theorem access_refines (f : Feed) (a : Access) :
    TokenStream.access ⟨f.remaining⟩ a = ((f.access a).answer, ⟨(f.access a).rest.remaining⟩) := by
  cases a with
  | peek =>
      rcases f.peek_cases with ⟨t, ts, hf, hpeek⟩ | ⟨hf, hpeek⟩ <;> simp only [access, hpeek, hf] <;> rfl
  | atEnd =>
      rcases f.peek_cases with ⟨t, ts, hf, hpeek⟩ | ⟨hf, hpeek⟩ <;>
        simp only [access, atEnd, hpeek, hf] <;> rfl
  | next =>
      rcases f.next_cases with ⟨t, ts, hf, hnext⟩ | ⟨hf, hnext⟩ <;> simp only [access, hnext, hf] <;> rfl
  | step =>
      rcases f.step_cases with ⟨t, ts, hf, hstep⟩ | ⟨hf, hstep⟩ <;> simp only [access, hstep, hf] <;> rfl
  | parse =>
      obtain ⟨hresult, hrest⟩ := f.parse_eq
      rw [access, hresult, hrest]
      rfl

theorem run_append (f : Feed) (as : List Access) :
    (f.run as).handed ++ (f.run as).rest.remaining = f.remaining := by
  induction as generalizing f with
  | nil => rfl
  | cons a as ih => rw [run, List.append_assoc, ih, access_append]

theorem run_answers (f : Feed) (as : List Access) :
    (f.run as).answers = TokenStream.answers ⟨f.remaining⟩ as := by
  induction as generalizing f with
  | nil => rfl
  | cons a as ih => rw [run, TokenStream.answers, access_refines, ih]

theorem access_congr (h : f.remaining = g.remaining) (a : Access) :
    (f.access a).handed = (g.access a).handed ∧
      (f.access a).rest.remaining = (g.access a).rest.remaining := by
  have hsame := (access_refines f a).symm.trans (h ▸ access_refines g a)
  have hrest : (f.access a).rest.remaining = (g.access a).rest.remaining :=
    TokenStream.mk.inj (Prod.mk.inj hsame).2
  -- what is handed out is what there was without what is left
  have hwhole := (access_append f a).trans (h.trans (access_append g a).symm)
  rw [hrest] at hwhole
  exact ⟨List.append_cancel_right hwhole, hrest⟩

theorem run_congr (h : f.remaining = g.remaining) (as : List Access) :
    (f.run as).answers = (g.run as).answers ∧ (f.run as).handed = (g.run as).handed ∧
      (f.run as).rest.remaining = (g.run as).rest.remaining := by
  refine ⟨by rw [run_answers, run_answers, h], ?_⟩
  induction as generalizing f g with
  | nil => exact ⟨rfl, h⟩
  | cons a as ih =>
      obtain ⟨hhanded, hrest⟩ := access_congr h a
      obtain ⟨hlater, hlast⟩ := ih hrest
      exact ⟨by rw [run, run, hhanded, hlater], hlast⟩

theorem run_of_end (h : f.remaining = []) (as : List Access) :
    (f.run as).handed = [] ∧ (f.run as).rest.remaining = [] := by
  have hwhole := f.run_append as
  rw [h] at hwhole
  exact List.append_eq_nil_iff.1 hwhole

theorem next_of_end (h : f.remaining = []) : f.next.1 = .error .endOfInput := by
  rcases f.next_cases with ⟨t, ts, hf, -⟩ | ⟨-, hnext⟩
  · cases h.symm.trans hf
  · rw [hnext]

theorem atEnd_iff : f.atEnd.1 = true ↔ f.remaining = [] := by
  rcases f.peek_cases with ⟨t, ts, hf, hpeek⟩ | ⟨hf, hpeek⟩ <;> simp [atEnd, hpeek, hf]

theorem run_rest_eq_nil_iff (f : Feed) (as : List Access) :
    (f.run as).rest.remaining = [] ↔ (f.run as).handed = f.remaining := by
  have hwhole := f.run_append as
  constructor <;> intro h
  · rwa [h, List.append_nil] at hwhole
  · exact List.append_right_eq_self.1 (hwhole.trans h.symm)

theorem drain_eq (f : Feed) : f.drain.1 = f.remaining ∧ f.drain.2.remaining = [] := by
  rw [drain]
  split
  · rename_i hnone
    rcases f.step_cases with ⟨t, ts, -, hstep⟩ | ⟨hf, hstep⟩
    · cases hnone.symm.trans (congrArg Prod.fst hstep)
    · exact ⟨hf.symm, by rw [hstep, hf]⟩
  · rename_i t hsome
    obtain ⟨htokens, hrest⟩ := drain_eq f.step.2
    rcases f.step_cases with ⟨u, ts, hf, hstep⟩ | ⟨-, hstep⟩
    · obtain rfl : t = u := Option.some.inj (hsome.symm.trans (congrArg Prod.fst hstep))
      have hbehind : f.step.2.remaining = ts := by rw [hstep]; rfl
      exact ⟨by rw [htokens, hbehind, hf], hrest⟩
    · cases hsome.symm.trans (congrArg Prod.fst hstep)
termination_by f.remaining.length
decreasing_by exact step_shorter ‹_›

theorem parse_atEnd (h : f.parse.result = .ok e) : Parse.AtEnd f.parse.rest.remaining := by
  obtain ⟨hresult, hrest⟩ := f.parse_eq
  exact (Parse.parse_yields.1 ⟨hresult.symm.trans h, hrest.symm⟩).2

/-- A feed is a cursor over its tokens, whatever is done with it. It answers as one, it hands out each
token once and in order, looking changes nothing, and the end is where all has been handed out. An
expression is read up to a place where it can end, and what is left over by a failure is still the end
of what there was. -/
theorem run_cursor (ts : List Token) (as : List Access) :
    let run := (ofTokens ts).run as
    let rest := run.rest
    run.answers = TokenStream.answers ⟨ts⟩ as ∧ run.handed ++ rest.remaining = ts ∧
      (∀ later, (rest.peek.2.run later).answers = (rest.run later).answers ∧
        (rest.peek.2.run later).handed = (rest.run later).handed ∧
        (rest.atEnd.2.run later).answers = (rest.run later).answers ∧
        (rest.atEnd.2.run later).handed = (rest.run later).handed) ∧
      (rest.atEnd.1 = true ↔ run.handed = ts) ∧
      (run.handed = ts → ∀ later, (rest.run later).rest.next.1 = .error .endOfInput) ∧
      (∀ e, rest.parse.result = .ok e → Parse.AtEnd rest.parse.rest.remaining) ∧
      rest.parse.rest.remaining <:+ rest.remaining := by
  intro run rest
  have hwhole : run.handed ++ rest.remaining = ts := run_append (ofTokens ts) as
  have hend : rest.remaining = [] ↔ run.handed = ts := run_rest_eq_nil_iff (ofTokens ts) as
  refine ⟨run_answers (ofTokens ts) as, hwhole, fun later => ?_, atEnd_iff.trans hend,
    fun h later => next_of_end (run_of_end (hend.2 h) later).2, fun e => parse_atEnd,
    ⟨rest.parse.taken, rest.parse.reads.append_eq⟩⟩
  obtain ⟨hanswers, hhanded, -⟩ := run_congr (remaining_peek rest) later
  exact ⟨hanswers, hhanded, hanswers, hhanded⟩

theorem run_cursor_failed_parse :
    let x : Token := ⟨.name, "x", .start⟩
    let closing : Token := ⟨.blockEnd, "%>", .start⟩
    let plus : Token := ⟨.operator .add, "+", .start⟩
    let f := ofTokens [x, closing, plus]
    let as : List Access := [.peek, .parse, .atEnd, .next, .parse]
    (f.run as).handed = [x, closing, plus] ∧
      ((f.run as).rest.run [.peek, .step]).rest.next.1 = .error .endOfInput ∧
      (f.run [.peek]).rest.parse.result = .ok (.name "x") ∧
      Parse.AtEnd (f.run [.peek]).rest.parse.rest.remaining := by
  intro x closing plus f as
  have hread : (TemplateExpr.parse [x, closing, plus]).result = .ok (.name "x") ∧
      (TemplateExpr.parse [x, closing, plus]).rest = [closing, plus] := by constructor <;> cbv
  have hfailed : (TemplateExpr.parse [plus]).rest = [] := by cbv
  obtain ⟨hresult, hrest⟩ := (f.run [.peek]).rest.parse_eq
  have hparse : (f.run [.peek]).rest.parse.result = .ok (.name "x") := hresult.trans hread.1
  have hbehind : (f.run [.peek, .parse, .atEnd, .next]).rest.remaining = [plus] :=
    (run_congr (g := ofTokens [closing, plus]) (hrest.trans hread.2) [.atEnd, .next]).2.2
  have hleft : (f.run as).rest.remaining = [] :=
    (parse_eq _).2.trans ((congrArg (TemplateExpr.parse · |>.rest) hbehind).trans hfailed)
  have hhanded : (f.run as).handed = [x, closing, plus] := (run_rest_eq_nil_iff f as).1 hleft
  obtain ⟨-, -, -, -, hnext, -, -⟩ := run_cursor [x, closing, plus] as
  obtain ⟨-, -, -, -, -, hatEnd, -⟩ := run_cursor [x, closing, plus] [.peek]
  exact ⟨hhanded, hnext hhanded [.peek, .step], hparse, hatEnd _ hparse⟩

end Feed

end TemplateExpr
