import TemplateExpr.Expr.Parse
import TemplateExpr.Proofs.Grammar.Shape

namespace TemplateExpr

theorem Token.exists_cons_of_contents {t : Token} {ts us : List Token}
    (h : (t :: ts).map content = us.map content) : ∃ u more, us = u :: more ∧
      t.content = u.content ∧ ts.map content = more.map content := by
  obtain ⟨u, more, rfl, hu, hmore⟩ := List.map_eq_cons_iff.1 h.symm
  exact ⟨u, more, rfl, hu.symm, hmore.symm⟩

/-- Two results or two failures, each pair related in its own way. -/
inductive Parallel {ε ε' α β : Type} (failures : ε → ε' → Prop) (results : α → β → Prop) :
    Except ε α → Except ε' β → Prop
  | error {e : ε} {e' : ε'} (h : failures e e') : Parallel failures results (.error e) (.error e')
  | ok {a : α} {b : β} (h : results a b) : Parallel failures results (.ok a) (.ok b)

theorem Parallel.mapError {ε ε' φ φ' α β : Type} {failures : ε → ε' → Prop}
    {others : φ → φ' → Prop} {results : α → β → Prop} {x : Except ε α} {y : Except ε' β}
    {f : ε → φ} {g : ε' → φ'} (h : Parallel failures results x y)
    (hfg : ∀ e e', failures e e' → others (f e) (g e')) :
    Parallel others results (x.mapError f) (y.mapError g) := by
  cases h with
  | error h => exact .error (hfg _ _ h)
  | ok h => exact .ok h

inductive SyntaxError.Alike : SyntaxError → SyntaxError → Prop
  | endOfInput : Alike .endOfInput .endOfInput
  | blame {problem : SyntaxProblem} {t u : Token} (h : t.content = u.content) :
      Alike (.blame problem t) (.blame problem u)

namespace Reading

/-- Readings of two runs of tokens that come to the same. -/
structure InStep {α β : Type} {ts us : List Token} (results : α → β → Prop) (r : Reading α ts)
    (s : Reading β us) : Prop where
  outcome : Parallel SyntaxError.Alike results r.result s.result
  rest : r.rest.map Token.content = s.rest.map Token.content

namespace InStep

variable {α α' β β' : Type} {ts us : List Token} {results : α → β → Prop}
  {others : α' → β' → Prop} {r : Reading α ts} {s : Reading β us}

theorem done {a : α} {b : β} (h : results a b) (hts : ts.map Token.content = us.map Token.content) :
    InStep results (done a ts) (done b us) := ⟨.ok h, hts⟩

theorem fail {e e' : SyntaxError} (h : e.Alike e')
    (hts : ts.map Token.content = us.map Token.content) :
    InStep results (fail e ts) (fail e' us) := ⟨.error h, hts⟩

theorem after (h : InStep results r s) (t u : Token) : InStep results (r.after t) (s.after u) :=
  ⟨h.outcome, h.rest⟩

theorem blame {t u : Token} (hu : t.content = u.content)
    (hts : ts.map Token.content = us.map Token.content) (problem : SyntaxProblem) :
    InStep results ((Reading.fail (.blame problem t) ts).after t)
      ((Reading.fail (.blame problem u) us).after u) :=
  (fail (.blame hu) hts).after t u

theorem map {f : α → α'} {g : β → β'} (h : InStep results r s)
    (hfg : ∀ a b, results a b → others (f a) (g b)) : InStep others (r.map f) (s.map g) := by
  obtain ⟨result, rest, hle⟩ := r
  obtain ⟨result', rest', hle'⟩ := s
  obtain ⟨houtcome, hrest⟩ := h
  refine ⟨?_, hrest⟩
  cases houtcome with
  | error h => exact .error h
  | ok h => exact .ok (hfg _ _ h)

theorem andThen {next : α → (rest : List Token) → rest.length ≤ ts.length → Reading α' rest}
    {next' : β → (rest : List Token) → rest.length ≤ us.length → Reading β' rest}
    (h : InStep results r s)
    (hnext : ∀ a b mid mid' hm hm', results a b →
      mid.map Token.content = mid'.map Token.content →
        InStep others (next a mid hm) (next' b mid' hm')) :
    InStep others (r.andThen next) (s.andThen next') := by
  obtain ⟨result, rest, hle⟩ := r
  obtain ⟨result', rest', hle'⟩ := s
  obtain ⟨houtcome, hrest⟩ := h
  cases houtcome with
  | error h => exact ⟨.error h, hrest⟩
  | ok h =>
      have hgo := hnext _ _ rest rest' hle hle' h hrest
      exact ⟨hgo.outcome, hgo.rest⟩

end InStep

end Reading

namespace Parse

open Reading (InStep)

variable {t u : Token} {ts us : List Token}

theorem operatorAbove?_of_content (h : t.content = u.content) (min : Nat) :
    t.operatorAbove? min = u.operatorAbove? min := by
  rw [Token.operatorAbove?, Token.operatorAbove?, Token.kind_eq_of_content_eq h]

theorem inside_inStep {inner inner' rest rest' : List Token} {r : Reading Expr inner}
    {s : Reading Expr inner'} (h : InStep Eq r s)
    (hrest : rest.map Token.content = rest'.map Token.content) :
    InStep (@Eq Expr)
      (match r.result, r.rest with
        | .ok e, [] => .done e rest
        | .ok _, t :: _ => .fail (.blame .inParentheses t) rest
        | .error e, _ => .fail e rest)
      (match s.result, s.rest with
        | .ok e, [] => .done e rest'
        | .ok _, t :: _ => .fail (.blame .inParentheses t) rest'
        | .error e, _ => .fail e rest') := by
  obtain ⟨result, left, hle⟩ := r
  obtain ⟨result', left', hle'⟩ := s
  obtain ⟨houtcome, hleft⟩ := h
  simp only at houtcome hleft ⊢
  cases houtcome with
  | error h => exact .fail h hrest
  | ok h =>
      cases left with
      | nil =>
          obtain rfl := List.map_eq_nil_iff.1 hleft.symm
          exact .done h hrest
      | cons t left =>
          obtain ⟨u, left', rfl, hu, -⟩ := Token.exists_cons_of_contents hleft
          exact .fail (.blame hu) hrest

theorem items_inStep (expectItem : Bool) (h : ts.map Token.content = us.map Token.content) :
    InStep Eq (items expectItem ts) (items expectItem us) := by
  induction ts generalizing us expectItem with
  | nil =>
      obtain rfl := List.map_eq_nil_iff.1 h.symm
      simpa only [items] using .fail .endOfInput rfl
  | cons t ts ih =>
      obtain ⟨u, us, rfl, hu, hus⟩ := Token.exists_cons_of_contents h
      have hkind := (Token.kind_eq_of_content_eq hu).symm
      have hitem (e : Expr) : InStep Eq (((items false ts).map (e :: ·)).after t)
          (((items false us).map (e :: ·)).after u) :=
        ((ih false hus).map fun _ _ hes => congrArg (e :: ·) hes).after t u
      cases hk : t.kind <;> cases expectItem <;> simp only [items, hkind, hk]
      case squareClose.false | squareClose.true => exact (InStep.done rfl hus).after t u
      case comma.false => exact (ih true hus).after t u
      case value.true => exact hitem _
      case name.true =>
        rw [Token.text_eq_of_content_eq hu hk]
        exact hitem _
      all_goals exact .blame hu hus _

def SameInside (inner : Enclosed ts) (inner' : Enclosed us) : Prop :=
  inner.1.map Token.content = inner'.1.map Token.content

theorem SameInside.nil :
    SameInside (⟨[], Nat.zero_le _⟩ : Enclosed ts) (⟨[], Nat.zero_le _⟩ : Enclosed us) := rfl

theorem SameInside.cons {inner : Enclosed ts} {inner' : Enclosed us} (h : SameInside inner inner')
    (hu : t.content = u.content) :
    SameInside (⟨t :: inner.1, Nat.succ_le_succ inner.2⟩ : Enclosed (t :: ts))
      (⟨u :: inner'.1, Nat.succ_le_succ inner'.2⟩ : Enclosed (u :: us)) := by
  rw [SameInside, List.map_cons, List.map_cons, hu, h]

theorem enclosed_inStep (nested : Nat) (h : ts.map Token.content = us.map Token.content) :
    InStep SameInside (enclosed nested ts) (enclosed nested us) := by
  induction ts generalizing us nested with
  | nil =>
      obtain rfl := List.map_eq_nil_iff.1 h.symm
      simpa only [enclosed] using .fail .endOfInput rfl
  | cons t ts ih =>
      obtain ⟨u, us, rfl, hu, hus⟩ := Token.exists_cons_of_contents h
      have hkind := (Token.kind_eq_of_content_eq hu).symm
      have htake (n : Nat) : InStep SameInside
          (((enclosed n ts).map fun i => (⟨t :: i.1, Nat.succ_le_succ i.2⟩ : Enclosed _)).after t)
          (((enclosed n us).map fun i => (⟨u :: i.1, Nat.succ_le_succ i.2⟩ : Enclosed _)).after u) :=
        ((ih n hus).map fun _ _ hinner => hinner.cons hu).after t u
      cases hk : t.kind <;> simp only [enclosed, hkind, hk]
      case blockEnd => exact .blame hu hus _
      case roundClose =>
        cases nested with
        | zero => exact (InStep.done SameInside.nil hus).after t u
        | succ nested => exact htake nested
      all_goals exact htake _

mutual

theorem expression_inStep (room min : Nat) {ts us : List Token}
    (h : ts.map Token.content = us.map Token.content) :
    InStep Eq (expression room min ts) (expression room min us) := by
  rw [expression, expression]
  refine (operand_inStep room h).andThen ?_
  rintro left _ mid mid' hm - rfl hmid
  exact climb_inStep room min left hmid
termination_by 2 * ts.length + 1
decreasing_by all_goals omega

theorem climb_inStep (room min : Nat) (left : Expr) {ts us : List Token}
    (h : ts.map Token.content = us.map Token.content) :
    InStep Eq (climb room min left ts) (climb room min left us) := by
  match ts with
  | [] =>
      obtain rfl := List.map_eq_nil_iff.1 h.symm
      simpa only [climb] using .done rfl rfl
  | t :: ts =>
      obtain ⟨u, us, rfl, hu, hus⟩ := Token.exists_cons_of_contents h
      rw [climb, climb, ← operatorAbove?_of_content hu]
      cases t.operatorAbove? min with
      | none => exact .done rfl h
      | some op =>
          refine ((expression_inStep room op.precedence hus).andThen ?_).after t u
          rintro right _ mid mid' hm - rfl hmid
          exact climb_inStep room min (.binary op left right) hmid
termination_by 2 * ts.length
decreasing_by all_goals simp only [List.length_cons]; omega

theorem operand_inStep (room : Nat) {ts us : List Token}
    (h : ts.map Token.content = us.map Token.content) :
    InStep Eq (operand room ts) (operand room us) := by
  match ts with
  | [] =>
      obtain rfl := List.map_eq_nil_iff.1 h.symm
      simpa only [operand] using .fail .endOfInput rfl
  | t :: ts =>
      obtain ⟨u, us, rfl, hu, hus⟩ := Token.exists_cons_of_contents h
      have hkind := (Token.kind_eq_of_content_eq hu).symm
      rw [operand.eq_def, operand.eq_def]
      cases hk : t.kind <;> simp only [hkind, hk]
      case value => exact (InStep.done rfl hus).after t u
      case name =>
        rw [Token.text_eq_of_content_eq hu hk]
        exact (InStep.done rfl hus).after t u
      case squareOpen =>
        exact ((items_inStep true hus).map fun _ _ hes => congrArg Expr.list hes).after t u
      case roundOpen =>
        cases room with
        | zero => exact .blame hu hus _
        | succ room =>
            refine ((enclosed_inStep 0 hus).andThen ?_).after t u
            -- what stands between the brackets is read on its own, and has the same contents too
            rintro ⟨inner, hle⟩ ⟨inner', hle'⟩ mid mid' - - hinner hmid
            exact inside_inStep (expression_inStep room 0 hinner) hmid
      case operator op =>
        cases op.isUnary with
        | false => exact .blame hu hus _
        | true =>
            have hoperand := operand_inStep room hus
            exact (hoperand.map fun _ _ he => congrArg (Expr.unary op) he).after t u
      all_goals exact .blame hu hus _
termination_by 2 * ts.length
decreasing_by all_goals simp only [List.length_cons]; omega

end

theorem parse_inStep (h : ts.map Token.content = us.map Token.content) :
    InStep Eq (parse ts) (parse us) := by
  refine (expression_inStep maxNesting 0 h).andThen ?_
  rintro e _ mid mid' - - rfl hmid
  cases mid with
  | nil =>
      obtain rfl := List.map_eq_nil_iff.1 hmid.symm
      exact .done rfl rfl
  | cons t rest =>
      obtain ⟨u, rest', rfl, hu, -⟩ := Token.exists_cons_of_contents hmid
      simp only [← Token.kind_eq_of_content_eq hu]
      cases t.kind.isBlockEnd with
      | true => exact .done rfl hmid
      | false => exact .fail (.blame hu) hmid

end Parse

open Parse

theorem parseBlock_parallel {ts us : List Token}
    (h : ts.map Token.content = us.map Token.content) :
    Parallel SyntaxError.Alike Eq (parseBlock ts) (parseBlock us) := by
  cases ts with
  | nil =>
      obtain rfl := List.map_eq_nil_iff.1 h.symm
      exact .error .endOfInput
  | cons t ts =>
      obtain ⟨u, us, rfl, hu, hus⟩ := Token.exists_cons_of_contents h
      rw [parseBlock, parseBlock, ← Token.kind_eq_of_content_eq hu]
      cases t.kind.isBlockStart with
      | false => exact .error (.blame hu)
      | true =>
          obtain ⟨houtcome, hrest⟩ := parse_inStep hus
          simp only [if_true]
          generalize (parse ts).result = result, (parse us).result = result' at houtcome ⊢
          generalize (parse ts).rest = rest, (parse us).rest = rest' at hrest ⊢
          cases houtcome with
          | error h => exact .error h
          | ok h =>
              cases rest with
              | nil =>
                  obtain rfl := List.map_eq_nil_iff.1 hrest.symm
                  exact .error .endOfInput
              | cons closing rest =>
                  obtain ⟨closing', rest', rfl, -, hrest⟩ := Token.exists_cons_of_contents hrest
                  cases rest with
                  | nil =>
                      obtain rfl := List.map_eq_nil_iff.1 hrest.symm
                      exact .ok h
                  | cons t rest =>
                      obtain ⟨u, rest', rfl, hu, -⟩ := Token.exists_cons_of_contents hrest
                      exact .error (.blame hu)

end TemplateExpr
