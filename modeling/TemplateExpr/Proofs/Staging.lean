import TemplateExpr.Proofs.Evaluation.Faults
import TemplateExpr.Proofs.Grammar.Blame

namespace TemplateExpr

open Diagnostic (Label)

inductive Stage where
  | lexing
  | parsing
  | evaluation
deriving DecidableEq

def Diagnostic.Label.stage? : Label → Option Stage
  | .general => none
  | .lexical => some .lexing
  | .grammatical | .endOfInput => some .parsing
  | .evaluation | .undefinedVariable | .type | .arithmetic | .unsupported => some .evaluation

/-- The source has a failure that is reported as one of this stage. -/
def FailsAt (c : Context) (source : String) (stage : Stage) : Prop :=
  ∃ i, evaluateSource c source = .error i ∧ i.label?.bind Label.stage? = some stage

/-- The failures of a source: of its text, of its tokens, or of its tree in a context. -/
inductive Arises (c : Context) (source : String) : Incident → Prop
  | lexical {err : LexicalError} (h : tokenize source = .error err) :
      Arises c source ⟨.lexical err, some source⟩
  | grammatical {ts : List Token} {err : SyntaxError} (ht : tokenize source = .ok ts)
      (h : parseBlock ts = .error err) : Arises c source ⟨.grammatical err, some source⟩
  | fault {ts : List Token} {e : Expr} {f : Fault} (ht : tokenize source = .ok ts)
      (he : parseBlock ts = .ok e) (h : evaluate c e = .error f) :
      Arises c source ((Incident.ofFault f).inSource source)

section

variable {c : Context} {source : String} {i : Incident} {ts : List Token} {e : Expr} {f : Fault}
  {label : Label}

theorem evaluateSource_fault (hp : parseSource source = .ok e)
    (h : evaluateSource c source = .error i) :
    ∃ f, evaluate c e = .error f ∧ i = (Incident.ofFault f).inSource source := by
  cases hf : evaluate c e with
  | error f =>
      simp only [evaluateSource, hp, hf, Except.mapError, Except.error.injEq] at h
      exact ⟨f, rfl, h.symm⟩
  | ok v => simp [evaluateSource, hp, hf, Except.mapError] at h

theorem evaluateSource_eq_error_iff : evaluateSource c source = .error i ↔ Arises c source i := by
  constructor
  · intro h
    cases ht : tokenize source with
    | error err =>
        simp only [evaluateSource, parseSource, ht, Except.error.injEq] at h
        exact h ▸ .lexical ht
    | ok ts =>
        cases he : parseBlock ts with
        | error err =>
            simp only [evaluateSource, parseSource, ht, he, Except.mapError,
              Except.error.injEq] at h
            exact h ▸ .grammatical ht he
        | ok e =>
            have hp := Grammar.parseSource_eq_ok_iff.2 ⟨ts, ht, he⟩
            obtain ⟨f, hf, rfl⟩ := evaluateSource_fault hp h
            exact .fault ht he hf
  · intro h
    cases h with
    | lexical h => simp [evaluateSource, parseSource, h]
    | grammatical ht h => simp [evaluateSource, parseSource, ht, h, Except.mapError]
    | fault ht he h => simp [evaluateSource, parseSource, ht, he, h, Except.mapError]

theorem Diagnostic.Label.isOfExpression_of_ofFault? (h : Label.ofFault? f = some label) :
    f.isOfExpression = true := by
  rw [← Label.isSome_ofFault?, h, Option.isSome_some]

theorem Diagnostic.Label.bind_stage?_ofFault_iff {stage : Stage} :
    (Label.ofFault? f).bind Label.stage? = some stage ↔
      stage = .evaluation ∧ f.isOfExpression = true := by
  cases f <;> simp [Label.ofFault?, Label.stage?, Fault.isOfExpression, eq_comm]

namespace Incident

theorem stage?_grammatical (err : SyntaxError) (source : Option String) :
    (⟨.grammatical err, source⟩ : Incident).label?.bind Label.stage? = some .parsing := by
  cases err <;> rfl

theorem label?_of_fault (h : i.failure = .fault f) : i.label? = Label.ofFault? f := by
  simp [label?, Diagnostic.ofIncident?, h, Function.comp_def, Diagnostic.unplaced]

theorem label?_inSource (source : String) (f : Fault) :
    ((ofFault f).inSource source).label? = Label.ofFault? f :=
  label?_of_fault (inSource_failure source (ofFault f))

theorem inSource_of_label (h : Label.ofFault? f = some label) (source : String) :
    (ofFault f).inSource source = ⟨.fault f, some source⟩ :=
  if_pos (Label.isOfExpression_of_ofFault? h)

end Incident

theorem evaluate_fault_label (hp : parseSource source = .ok e) (h : evaluate c e = .error f) :
    (∃ label ∈ [Label.undefinedVariable, .type, .arithmetic], Label.ofFault? f = some label) ∨
      ∃ l, f = .limit l ∧ ¬ c.Fits := by
  rw [evaluate_eq_eval] at h
  rcases Expr.eval_fault (parseSource_writable hp) (parseSource_fits hp) h with ⟨x, rfl⟩ | hf
  · exact .inl ⟨_, by simp, rfl⟩
  · cases hf with
    | type h => exact .inl ⟨_, by simp, h⟩
    | arithmetic h => exact .inl ⟨_, by simp, h⟩
    | limit hfits => exact .inr ⟨_, rfl, hfits⟩

theorem parseBlock_blame_mem {problem : SyntaxProblem} {t : Token}
    (h : parseBlock ts = .error (.blame problem t)) : t ∈ ts := by
  unfold parseBlock at h
  split at h
  · cases h
  · rename_i opening ts
    cases ho : opening.kind.isBlockStart with
    | false =>
        simp only [ho, Bool.false_eq_true, if_false, Except.error.injEq, SyntaxError.blame.injEq] at h
        exact h.2 ▸ List.mem_cons_self
    | true =>
        simp only [ho, if_true] at h
        split at h
        · rename_i hf
          obtain rfl := Except.error.inj h
          obtain ⟨p, more, rfl, -⟩ := (Parse.parse_rejects hf).blamed
          simp
        · cases h
        · cases h
        · rename_i hr hrest
          cases h
          obtain ⟨p, rfl, -⟩ := Grammar.parse_yields_iff.1 ⟨hr, hrest⟩
          simp

/-- A failure carries the source. Only the limits, which no integers of 64 bits reach, are no matter of
any source. -/
theorem Arises.source_eq (h : Arises c source i) :
    i.source = some source ∨ ∃ l, i = .ofFault (.limit l) ∧ ¬ c.Fits := by
  cases h with
  | lexical | grammatical => exact .inl rfl
  | fault ht he h =>
      have hp := Grammar.parseSource_eq_ok_iff.2 ⟨_, ht, he⟩
      rcases evaluate_fault_label hp h with ⟨label, -, hl⟩ | ⟨l, rfl, hc⟩
      · rw [Incident.inSource_of_label hl]
        exact .inl rfl
      · exact .inr ⟨l, rfl, hc⟩

theorem failsAt_iff {stage : Stage} : FailsAt c source stage ↔
    (stage = .lexing ∧ ∃ err, tokenize source = .error err) ∨
      ∃ ts, tokenize source = .ok ts ∧
        ((stage = .parsing ∧ ∃ err, parseBlock ts = .error err) ∨
          (stage = .evaluation ∧ ∃ e f, parseBlock ts = .ok e ∧ evaluate c e = .error f ∧
            f.isOfExpression = true)) := by
  constructor
  · rintro ⟨i, hi, hs⟩
    cases evaluateSource_eq_error_iff.1 hi with
    | lexical h => exact .inl ⟨(Option.some.inj hs).symm, _, h⟩
    | grammatical ht h =>
        rw [Incident.stage?_grammatical] at hs
        exact .inr ⟨_, ht, .inl ⟨(Option.some.inj hs).symm, _, h⟩⟩
    | fault ht he h =>
        rw [Incident.label?_inSource, Label.bind_stage?_ofFault_iff] at hs
        exact .inr ⟨_, ht, .inr ⟨hs.1, _, _, he, h, hs.2⟩⟩
  · rintro (⟨rfl, err, h⟩ | ⟨ts, ht, ⟨rfl, err, h⟩ | ⟨rfl, e, f, he, h, hf⟩⟩)
    · exact ⟨_, evaluateSource_eq_error_iff.2 (.lexical h), rfl⟩
    · exact ⟨_, evaluateSource_eq_error_iff.2 (.grammatical ht h), Incident.stage?_grammatical _ _⟩
    · refine ⟨_, evaluateSource_eq_error_iff.2 (.fault ht he h), ?_⟩
      rw [Incident.label?_inSource]
      exact Label.bind_stage?_ofFault_iff.2 ⟨rfl, hf⟩

theorem failsAt_evaluation_iff (ht : tokenize source = .ok ts) (he : parseBlock ts = .ok e) :
    (FailsAt c source .evaluation ∨
        ∃ l, evaluateSource c source = .error (.ofFault (.limit l)) ∧ ¬ c.Fits) ↔
      ∃ f, evaluate c e = .error f := by
  have hp := Grammar.parseSource_eq_ok_iff.2 ⟨ts, ht, he⟩
  constructor
  · intro h
    obtain ⟨i, hi⟩ : ∃ i, evaluateSource c source = .error i := by
      rcases h with ⟨i, hi, -⟩ | ⟨l, hl, -⟩
      · exact ⟨i, hi⟩
      · exact ⟨_, hl⟩
    obtain ⟨f, hf, -⟩ := evaluateSource_fault hp hi
    exact ⟨f, hf⟩
  · rintro ⟨f, hf⟩
    rcases evaluate_fault_label hp hf with ⟨label, -, hl⟩ | ⟨l, rfl, hc⟩
    · have hexpression := Label.isOfExpression_of_ofFault? hl
      exact .inl (failsAt_iff.2 (.inr ⟨ts, ht, .inr ⟨rfl, e, f, he, hf, hexpression⟩⟩))
    · exact .inr ⟨l, evaluateSource_eq_error_iff.2 (.fault ht he hf), hc⟩

end

/-- What is read can be written, so that a source never fails for want of a form of an operator. When
the integers of its context have 64 bits, its tree fails for want of a value of a name, or because of kinds
or numbers that an operator does not take. -/
theorem read_faults :
    (∀ ts e, (TokenStream.parse ⟨ts⟩).1 = .ok e → e.Writable) ∧
    (∀ c source i, evaluateSource c source = .error i → i.label? ≠ some .unsupported) ∧
    ∀ c source e i, c.Fits → parseSource source = .ok e → evaluateSource c source = .error i →
      ∃ label ∈ [Label.undefinedVariable, .type, .arithmetic], i.label? = some label := by
  refine ⟨fun ts e h => ?_, fun c source i h => ?_, fun c source e i hc hp h => ?_⟩
  · obtain ⟨p, -, -, hd⟩ := Grammar.parse_yields_iff.1 ⟨h, rfl⟩
    exact hd.writable
  · cases evaluateSource_eq_error_iff.1 h with
    | lexical => nofun
    | @grammatical _ err => cases err <;> nofun
    | fault ht he hf =>
        rw [Incident.label?_inSource]
        have hp := Grammar.parseSource_eq_ok_iff.2 ⟨_, ht, he⟩
        rcases evaluate_fault_label hp hf with ⟨label, hmem, hl⟩ | ⟨l, rfl, -⟩
        · intro hunsupported
          cases hl.symm.trans hunsupported
          simp at hmem
        · nofun
  · obtain ⟨f, hf, rfl⟩ := evaluateSource_fault hp h
    rw [Incident.label?_inSource]
    rcases evaluate_fault_label hp hf with hl | ⟨l, -, hc'⟩
    · exact hl
    · exact absurd hc hc'

theorem read_faults_text :
    let c : Context := ⟨[("x", .string "a")]⟩
    let e : Expr := .unary .sub (.name "x")
    e.Writable ∧ c.Fits ∧ parseSource "-x" = .ok e ∧
      ∃ i, evaluateSource c "-x" = .error i ∧
        ∃ label ∈ [Label.undefinedVariable, .type, .arithmetic], i.label? = some label := by
  intro c e
  have hread : (TokenStream.parse ⟨[⟨.operator .sub, "-", .start⟩, ⟨.name, "x", .start⟩]⟩).1 =
      .ok e := by cbv
  have hc : c.Fits := by simpa [Context.Fits, c] using Value.Fits.string
  have hp : parseSource "-x" = .ok e := by
    rw [parseSource, tokenize_eq]
    cbv
  have hfault : evaluate c e = .error (.notANumber .sub .string) := evaluate_eq_eval c e
  have h : evaluateSource c "-x" =
      .error ((Incident.ofFault (.notANumber .sub .string)).inSource "-x") := by
    simp only [evaluateSource, hp, hfault, Except.mapError]
  exact ⟨read_faults.1 _ _ hread, hc, hp, _, h, read_faults.2.2 c "-x" e _ hc hp h⟩

/-- A source fails in the first stage that does not succeed. Its failure carries the source, unless
evaluation reaches a limit with integers of more than 64 bits, and a token that is to blame is one of
its tokens. -/
theorem evaluateSource_stages (c : Context) (source : String) :
    (∀ i, evaluateSource c source = .error i →
      i.source = some source ∨ ∃ l, i = .ofFault (.limit l) ∧ ¬ c.Fits) ∧
    (FailsAt c source .lexing ↔ ∃ err, tokenize source = .error err) ∧
    ∀ ts, tokenize source = .ok ts →
      (FailsAt c source .parsing ↔ ∃ err, parseBlock ts = .error err) ∧
      (∀ i problem t, evaluateSource c source = .error i →
        i.failure = .grammatical (.blame problem t) → t ∈ ts) ∧
      ∀ e, parseBlock ts = .ok e →
        ((FailsAt c source .evaluation ∨
            ∃ l, evaluateSource c source = .error (.ofFault (.limit l)) ∧ ¬ c.Fits) ↔
          ∃ f, evaluate c e = .error f) := by
  refine ⟨fun i h => (evaluateSource_eq_error_iff.1 h).source_eq, ?_, fun ts ht => ⟨?_, ?_, ?_⟩⟩
  · simp [failsAt_iff]
  · simp [failsAt_iff, ht]
  · intro i problem t hi hfailure
    cases evaluateSource_eq_error_iff.1 hi with
    | lexical h => cases hfailure
    | grammatical hus h =>
        cases ht.symm.trans hus
        cases hfailure
        exact parseBlock_blame_mem h
    | fault hus he h =>
        rw [Incident.inSource_failure] at hfailure
        cases hfailure
  · exact fun e he => failsAt_evaluation_iff ht he

theorem evaluateSource_stages_empty :
    FailsAt .empty "" .parsing ∧ FailsAt .empty "x" .evaluation ∧
      ∀ i, evaluateSource .empty "" = .error i → i.source = some "" := by
  have hempty : tokenize "" = .ok [⟨.blockStart, "", .start⟩, ⟨.blockEnd, "", .start⟩] := by
    rw [tokenize_eq]
    cbv
  have hblock : parseBlock [⟨.blockStart, "", .start⟩, ⟨.blockEnd, "", .start⟩] =
      .error (.blame .unexpected ⟨.blockEnd, "", .start⟩) := by cbv
  have hx : tokenize "x" = .ok [⟨.blockStart, "", .start⟩, ⟨.name, "x", .start⟩,
      ⟨.blockEnd, "", ⟨1, 2, 1⟩⟩] := by
    rw [tokenize_eq]
    cbv
  have hname : parseBlock [⟨.blockStart, "", .start⟩, ⟨.name, "x", .start⟩,
      ⟨.blockEnd, "", ⟨1, 2, 1⟩⟩] = .ok (.name "x") := by cbv
  have hfault : evaluate .empty (.name "x") = .error (.undefinedVariable "x" []) :=
    evaluate_eq_eval .empty (.name "x")
  have hfits : Context.empty.Fits := by simp [Context.Fits, Context.empty]
  obtain ⟨hsource, -, hstages⟩ := evaluateSource_stages .empty ""
  obtain ⟨-, -, hstages'⟩ := evaluateSource_stages .empty "x"
  refine ⟨(hstages _ hempty).1.2 ⟨_, hblock⟩, ?_, fun i hi => ?_⟩
  · rcases ((hstages' _ hx).2.2 _ hname).2 ⟨_, hfault⟩ with h | ⟨l, -, h⟩
    · exact h
    · exact absurd hfits h
  · rcases hsource i hi with h | ⟨l, -, h⟩
    · exact h
    · exact absurd hfits h

theorem square_fault {n : Int} {f : Fault} (h : Value.checkRange (n * n) = .error f) :
    Expr.eval ⟨[("x", .integer n)]⟩ (.binary .mul (.name "x") (.name "x")) = .error f :=
  congrArg (Except.map Value.integer) h

/-- A product of more digits than can be written has no message that shows it. -/
theorem evaluateSource_without_source :
    let c : Context := ⟨[("x", .integer (10 ^ 2150))]⟩
    evaluateSource c "x * x" = .error (.ofFault (.limit .writing)) ∧
      ¬ ∀ c source i, evaluateSource c source = .error i → i.source = some source := by
  intro c
  have ht : tokenize "x * x" = .ok [⟨.blockStart, "", .start⟩, ⟨.name, "x", .start⟩,
      ⟨.operator .mul, "*", ⟨1, 3, 2⟩⟩, ⟨.name, "x", ⟨1, 5, 4⟩⟩, ⟨.blockEnd, "", ⟨1, 6, 5⟩⟩] := by
    rw [tokenize_eq]
    cbv
  have he : parseBlock [⟨.blockStart, "", .start⟩, ⟨.name, "x", .start⟩,
      ⟨.operator .mul, "*", ⟨1, 3, 2⟩⟩, ⟨.name, "x", ⟨1, 5, 4⟩⟩, ⟨.blockEnd, "", ⟨1, 6, 5⟩⟩] =
        .ok (.binary .mul (.name "x") (.name "x")) := by
    cbv
  have hrange : Value.inRange (10 ^ 2150 * 10 ^ 2150) = false := by decide +kernel
  have hwritable : Limit.writable (10 ^ 2150 * 10 ^ 2150) = false := by decide +kernel
  have hcheck : Value.checkRange (10 ^ 2150 * 10 ^ 2150) = .error (.limit .writing) := by
    rw [Value.checkRange, hrange, hwritable]
    rfl
  have hfault := (evaluate_eq_eval c _).trans (square_fault hcheck)
  have heval := evaluateSource_eq_error_iff.2 (.fault ht he hfault)
  refine ⟨heval, fun h => ?_⟩
  cases h c "x * x" _ heval

end TemplateExpr
