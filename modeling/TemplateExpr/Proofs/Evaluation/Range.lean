import TemplateExpr.Proofs.Evaluation.Fitting
import TemplateExpr.Proofs.Evaluation.Turns
import TemplateExpr.Proofs.Grammar.Acceptance
import TemplateExpr.Proofs.Lexing.Scan

namespace TemplateExpr

inductive Expr.Fits : Expr → Prop
  | constant {v : Value} (h : v.Fits) : Fits (.constant v)
  | name {x : String} : Fits (.name x)
  | unary {op : Operator} {a : Expr} (h : Fits a) : Fits (.unary op a)
  | binary {op : Operator} {a b : Expr} (ha : Fits a) (hb : Fits b) : Fits (.binary op a b)
  | list {items : List Expr} (h : ∀ e ∈ items, Fits e) : Fits (.list items)

namespace Machine

variable {c : Context} {tasks : List Task} {results : List Value}

def Task.Fits : Task → Prop
  | .visit e => e.Fits
  | _ => True

def Turn.Fits : Turn → Prop
  | .next tasks results => (∀ t ∈ tasks, t.Fits) ∧ ∀ v ∈ results, v.Fits
  | .stop (.ok v) => v.Fits
  | .stop (.error _) => True

theorem push_fits {x : Except Fault Value} (ht : ∀ t ∈ tasks, t.Fits) (hr : ∀ v ∈ results, v.Fits)
    (hx : ∀ v, x = .ok v → v.Fits) : (Turn.push tasks results x).Fits := by
  cases x with
  | error fault => trivial
  | ok v => exact ⟨ht, List.forall_mem_cons.2 ⟨hx v rfl, hr⟩⟩

theorem pop?_fits {count : Nat} {items rest : List Value} (hr : ∀ v ∈ results, v.Fits)
    (h : pop? count results = some (items, rest)) :
    (Value.list items).Fits ∧ ∀ v ∈ rest, v.Fits := by
  rw [pop?] at h
  split at h
  · cases h
    refine ⟨.list fun v hv => ?_, fun v hv => hr v (List.mem_of_mem_drop hv)⟩
    exact hr v (List.mem_of_mem_take (List.mem_reverse.1 hv))
  · cases h

theorem visit_fits {e : Expr} (hc : c.Fits) (he : e.Fits) (ht : ∀ t ∈ tasks, t.Fits)
    (hr : ∀ v ∈ results, v.Fits) : (turn c (.visit e :: tasks) results).Fits := by
  cases he with
  | constant hv => exact ⟨ht, List.forall_mem_cons.2 ⟨hv, hr⟩⟩
  | name => exact push_fits ht hr fun v hv => hc.value hv
  | @unary op a ha =>
      have htasks : ∀ t ∈ .applyUnary op :: tasks, t.Fits := List.forall_mem_cons.2 ⟨trivial, ht⟩
      exact ⟨List.forall_mem_cons.2 ⟨ha, htasks⟩, hr⟩
  | @binary op a b ha hb =>
      have htasks : ∀ t ∈ .applyBinary op :: tasks, t.Fits := List.forall_mem_cons.2 ⟨trivial, ht⟩
      exact ⟨List.forall_mem_cons.2 ⟨ha, List.forall_mem_cons.2 ⟨hb, htasks⟩⟩, hr⟩
  | @list items hitems =>
      refine ⟨fun t hmem => ?_, hr⟩
      rcases List.mem_append.1 hmem with hmem | hmem
      · obtain ⟨e, he, rfl⟩ := List.mem_map.1 hmem
        exact hitems e he
      · rcases List.mem_cons.1 hmem with rfl | hmem
        · trivial
        · exact ht t hmem

theorem turn_fits (hc : c.Fits) (ht : ∀ t ∈ tasks, t.Fits) (hr : ∀ v ∈ results, v.Fits) :
    (turn c tasks results).Fits := by
  match tasks, results with
  | [], [] | [], _ :: _ :: _ => trivial
  | [], [v] => exact hr v List.mem_cons_self
  | .visit e :: tasks, results =>
      have he : e.Fits := ht (.visit e) List.mem_cons_self
      exact visit_fits hc he (List.forall_mem_cons.1 ht).2 hr
  | .applyUnary op :: tasks, [] => trivial
  | .applyUnary op :: tasks, a :: results =>
      obtain ⟨ha, hr⟩ := List.forall_mem_cons.1 hr
      exact push_fits (List.forall_mem_cons.1 ht).2 hr fun v hv => Operator.applyUnary_fits ha hv
  | .applyBinary op :: tasks, [] | .applyBinary op :: tasks, [_] => trivial
  | .applyBinary op :: tasks, b :: a :: results =>
      obtain ⟨hb, ha, hr⟩ := by simpa only [List.forall_mem_cons] using hr
      exact push_fits (List.forall_mem_cons.1 ht).2 hr fun v hv => Operator.applyBinary_fits ha hb hv
  | .gather count :: tasks, results =>
      rw [turn]
      split
      · rename_i items rest hpop
        obtain ⟨hitems, hrest⟩ := pop?_fits hr hpop
        exact ⟨(List.forall_mem_cons.1 ht).2, List.forall_mem_cons.2 ⟨hitems, hrest⟩⟩
      · trivial

theorem Reaches.fits {n : Nat} {mid : List Task} {midResults : List Value} (hc : c.Fits)
    (h : Reaches c n tasks results mid midResults) (ht : ∀ t ∈ tasks, t.Fits)
    (hr : ∀ v ∈ results, v.Fits) : (∀ t ∈ mid, t.Fits) ∧ ∀ v ∈ midResults, v.Fits := by
  induction h with
  | here => exact ⟨ht, hr⟩
  | next hturn _ ih =>
      have hf := turn_fits hc ht hr
      rw [hturn] at hf
      exact ih hf.1 hf.2

theorem run_fits {v : Value} (hc : c.Fits) (hs : Suffices tasks results.length)
    (ht : ∀ t ∈ tasks, t.Fits) (hr : ∀ v ∈ results, v.Fits) (h : run c tasks results = .ok v) :
    v.Fits := by
  obtain ⟨n, mid, midResults, hreaches, hstop⟩ := exists_reaches_stop c hs
  obtain ⟨hmid, hmidResults⟩ := hreaches.fits hc ht hr
  have hf := turn_fits hc hmid hmidResults
  rwa [hstop, h] at hf

end Machine

namespace Grammar

def ValuesFit (ts : List Token) : Prop := ∀ t ∈ ts, ∀ v, t.kind = .value v → v.Fits

variable {p : List Token} {t : Token} {e : Expr} {es : List Expr}

theorem Item.fits (h : Item t e) (ht : ∀ v, t.kind = .value v → v.Fits) : e.Fits := by
  cases h with
  | value h => exact .constant (ht _ h)
  | name h => exact .name

theorem Row.fits (h : Row p es) (hp : ValuesFit p) : ∀ e ∈ es, e.Fits := by
  induction h with
  | last h => simpa using h.fits (hp _ List.mem_cons_self)
  | more h _ _ ih =>
      have hrest := ih fun t ht => hp t (List.mem_cons_of_mem _ (List.mem_cons_of_mem _ ht))
      exact List.forall_mem_cons.2 ⟨h.fits (hp _ List.mem_cons_self), hrest⟩

theorem Contents.fits (h : Contents p es) (hp : ValuesFit p) : ∀ e ∈ es, e.Fits := by
  cases h with
  | empty => simp
  | row h => exact h.fits hp
  | trailing h _ => exact h.fits fun t ht => hp t (List.mem_append_left _ ht)

theorem Derives.fits {depth level : Nat} (h : Derives depth level p e) (hp : ValuesFit p) :
    e.Fits := by
  induction h with
  | tighter _ _ ih => exact ih hp
  | binary _ _ _ _ ihp ihq =>
      have hleft := ihp fun t ht => hp t (List.mem_append_left _ ht)
      have hright := ihq fun t ht => hp t (List.mem_append_right _ (List.mem_cons_of_mem _ ht))
      exact .binary hleft hright
  | unary _ _ _ ih => exact .unary (ih fun t ht => hp t (List.mem_cons_of_mem _ ht))
  | item h => exact h.fits (hp _ List.mem_cons_self)
  | list _ _ h =>
      exact .list (h.fits fun t ht => hp t (List.mem_cons_of_mem _ (List.mem_append_left _ ht)))
  | group _ _ _ ih =>
      exact ih fun t ht => hp t (List.mem_cons_of_mem _ (List.mem_append_left _ ht))

end Grammar

namespace Lexeme

theorem Denotes.fits {shape : Shape} {text : List Char} {v : Value}
    (h : Denotes shape text (.value v)) (hs : Spells text shape) : v.Fits := by
  cases h with
  | sign =>
      -- no sign is a literal
      cases hs with
      | sign h => simp [signs] at h
  | keyword h =>
      simp only [keywords, List.mem_cons, Prod.mk.injEq, Token.Kind.value.injEq, reduceCtorEq,
        and_false, false_or, List.not_mem_nil, or_false] at h
      rcases h with ⟨-, rfl⟩ | ⟨-, rfl⟩ <;> exact .boolean
  | integer h => exact .integer (by omega)
  | float => exact .float
  | string => exact .string

theorem Gives.fits {found : Position × Lexeme} {t : Token} {cs : List Char} {v : Value}
    (h : Gives found t) (hx : Longest cs found.2) (hv : t.kind = .value v) : v.Fits := by
  obtain ⟨kind, hd, rfl⟩ := h
  obtain rfl : kind = .value v := hv
  exact hd.fits hx.spells

theorem Reaches.valuesFit {p q : Position} {cs rest : List Char} {found : List (Position × Lexeme)}
    {ts : List Token} (h : Reaches p cs found q rest) (hg : List.Forall₂ Gives found ts) :
    Grammar.ValuesFit ts := by
  induction h generalizing ts with
  | here =>
      cases hg
      simp [Grammar.ValuesFit]
  | space _ _ ih => exact ih hg
  | lexeme hx _ ih =>
      cases hg with
      | cons ht hts =>
          exact List.forall_mem_cons.2 ⟨fun v hv => ht.fits hx hv, ih hts⟩

end Lexeme

theorem tokenize_fits {source : String} {ts : List Token} (h : tokenize source = .ok ts) :
    Grammar.ValuesFit ts := by
  obtain ⟨us, hus, rfl⟩ := tokenize_ok_iff.1 h
  obtain ⟨found, q, hr, hg⟩ := Lexeme.scan_ok_iff.1 hus
  have hfit := hr.valuesFit hg
  split
  · exact hfit
  · intro t ht v hv
    rcases List.mem_append.1 ht with ht | ht
    · rcases List.mem_cons.1 ht with rfl | ht
      · cases hv
      · exact hfit t ht v hv
    · rw [List.mem_singleton.1 ht] at hv
      cases hv

theorem parseSource_fits {source : String} {e : Expr} (h : parseSource source = .ok e) : e.Fits := by
  obtain ⟨ts, hts, hblock⟩ := Grammar.parseSource_eq_ok_iff.1 h
  obtain ⟨opening, p, closing, rfl, -, -, hd⟩ := Grammar.parseBlock_eq_ok_iff.1 hblock
  refine hd.fits fun t ht => tokenize_fits hts t ?_
  exact List.mem_cons_of_mem _ (List.mem_append_left _ ht)

theorem run_eq_ok_of_evaluate {c : Context} {e : Expr} {v : Value} (h : evaluate c e = .ok v) :
    Machine.run c [.visit e] [] = .ok v := by
  rw [evaluate_eq_eval] at h
  rw [Machine.run_visit, h]
  simp only [Machine.run]

/-- With a context that is made of data, a tree whose constants have 64 bits has a value of integers of
64 bits, and so has each source; nothing else is among the results of the machine on the way. -/
theorem evaluate_fits :
    (∀ c e v, Context.Made c → e.Fits → evaluate c e = .ok v → v.Fits) ∧
    (∀ c source v, Context.Made c → evaluateSource c source = .ok v → v.Fits) ∧
    (∀ source e, parseSource source = .ok e → e.Fits) ∧
    ∀ c e n tasks results, Context.Made c → e.Fits →
      Machine.Reaches c n [.visit e] [] tasks results → ∀ v ∈ results, v.Fits := by
  have hvisit : ∀ e : Expr, e.Fits → ∀ t ∈ [Machine.Task.visit e], t.Fits := by
    intro e he t ht
    rwa [List.mem_singleton.1 ht]
  have hempty : ∀ v ∈ ([] : List Value), v.Fits := by simp
  have hevaluate : ∀ c e v, Context.Made c → e.Fits → evaluate c e = .ok v → v.Fits := by
    intro c e v hc he h
    have hs : Machine.Suffices [.visit e] ([] : List Value).length := rfl
    exact Machine.run_fits hc.fits hs (hvisit e he) hempty (run_eq_ok_of_evaluate h)
  refine ⟨hevaluate, fun c source v hc h => ?_, fun source e => parseSource_fits, ?_⟩
  · rw [evaluateSource] at h
    split at h
    · cases h
    · rename_i e he
      exact hevaluate c e v hc (parseSource_fits he) (Grammar.mapError_eq_ok_iff.1 h)
  · intro c e n tasks results hc he h
    exact (h.fits hc.fits (hvisit e he) hempty).2

theorem evaluate_fits_largest :
    let c : Context := ⟨[("n", .integer 9223372036854775807)]⟩
    let e : Expr := .binary .sub (.name "n") (.constant (.integer 1))
    c.Made ∧ e.Fits ∧ evaluate c e = .ok (.integer 9223372036854775806) ∧
      (Value.integer 9223372036854775806).Fits := by
  intro c e
  have hentries : ∀ b ∈ [("n", Datum.integer 9223372036854775807)], b.2.Fits := by
    intro b hb v hv
    rw [List.mem_singleton.1 hb] at hv
    cases hv
  have hc : c.Made := .ofEntries hentries rfl
  have he : e.Fits := .binary .name (.constant (.integer (by decide)))
  have hv : evaluate c e = .ok (.integer 9223372036854775806) := by
    rw [evaluate_eq_eval]
    rfl
  exact ⟨hc, he, hv, evaluate_fits.1 c e _ hc he hv⟩

end TemplateExpr
