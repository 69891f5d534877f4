import TemplateExpr.Expr.Feed
import TemplateExpr.Proofs.Grammar.Relocation

namespace TemplateExpr

namespace Feed

/-- An outcome on a feed, and a reading of tokens that comes to the same. -/
structure Mirrors {α β : Type} {f : Feed} {ts : List Token} (same : α → β → Prop) (o : Outcome α f)
    (r : Reading β ts) : Prop where
  result : Parallel Eq same o.result r.result
  rest : o.rest.remaining = r.rest

namespace Mirrors

variable {α α' β β' : Type} {f : Feed} {t : Token} {ts : List Token} {same : α → β → Prop}
  {others : α' → β' → Prop} {o : Outcome α f} {r : Reading β ts}

theorem done {a : α} {b : β} (h : same a b) (hf : f.remaining = ts) :
    Mirrors same (Outcome.done a f) (Reading.done b ts) := ⟨.ok h, hf⟩

theorem fail {e : SyntaxError} (hf : f.remaining = ts) :
    Mirrors same (Outcome.fail e f) (Reading.fail e ts) := ⟨.error rfl, hf⟩

theorem map {g : α → α'} {g' : β → β'} (h : Mirrors same o r)
    (hg : ∀ a b, same a b → others (g a) (g' b)) : Mirrors others (o.map g) (r.map g') := by
  obtain ⟨result, taken, rest, hreads⟩ := o
  obtain ⟨result', rest', hle⟩ := r
  obtain ⟨hresult, hrest⟩ := h
  refine ⟨?_, hrest⟩
  cases hresult with
  | error h => exact .error h
  | ok h => exact .ok (hg _ _ h)

theorem andThen {go : α → (rest : Feed) → rest.remaining.length ≤ f.remaining.length → Outcome α' rest}
    {next : β → (rest : List Token) → rest.length ≤ ts.length → Reading β' rest}
    (h : Mirrors same o r)
    (hgo : ∀ a b rest left hle hle', same a b → rest.remaining = left →
      Mirrors others (go a rest hle) (next b left hle')) :
    Mirrors others (o.andThen go) (r.andThen next) := by
  obtain ⟨result, taken, rest, hreads⟩ := o
  obtain ⟨result', rest', hle⟩ := r
  obtain ⟨hresult, rfl⟩ := h
  cases hresult with
  | error h => exact ⟨.error h, rfl⟩
  | ok h =>
      have hthen := hgo _ _ rest _ hreads.length_le hle h rfl
      exact ⟨hthen.result, hthen.rest⟩

theorem looking {go : Option Token → Outcome α f.peek.2} (hf : f.remaining = ts)
    (hgo : f.peek.1 = ts.head? → f.peek.2.remaining = ts → Mirrors same (go ts.head?) r) :
    Mirrors same (f.looking go) r := by
  have hpeek : f.peek.1 = ts.head? := by
    rcases f.peek_cases with ⟨t, us, h, hpeek⟩ | ⟨h, hpeek⟩ <;> rw [hpeek, ← hf, h] <;> rfl
  have hthen := hgo hpeek ((remaining_peek f).trans hf)
  rw [← hpeek] at hthen
  exact ⟨hthen.result, hthen.rest⟩

theorem taking_end {go : (t : Token) → f.next.1 = .ok t → Outcome α f.next.2}
    (hf : f.remaining = []) : Mirrors same (f.taking go) (Reading.fail .endOfInput []) := by
  rcases f.next_cases with ⟨t, ts, h, hnext⟩ | ⟨h, hnext⟩
  · exact absurd (h.symm.trans hf) (List.cons_ne_nil t ts)
  · have herror : f.next.1 = .error .endOfInput := congrArg Prod.fst hnext
    have hrest : f.next.2.remaining = [] := by rw [hnext, hf]
    unfold Feed.taking
    split
    · rename_i e he
      obtain rfl : e = .endOfInput := Except.error.inj (he.symm.trans herror)
      exact ⟨.error rfl, hrest⟩
    · rename_i t ht
      cases ht.symm.trans herror

theorem taking {go : (t : Token) → f.next.1 = .ok t → Outcome α f.next.2}
    (hf : f.remaining = t :: ts)
    (hgo : ∀ ht, f.next.2.remaining = ts → Mirrors same (go t ht) r) :
    Mirrors same (f.taking go) (r.after t) := by
  rcases f.next_cases with ⟨u, us, h, hnext⟩ | ⟨h, hnext⟩
  · obtain ⟨rfl, rfl⟩ := List.cons.inj (h.symm.trans hf)
    have hok : f.next.1 = .ok u := congrArg Prod.fst hnext
    have hthen := hgo hok (by rw [hnext]; rfl)
    unfold Feed.taking
    split
    · rename_i e he
      cases he.symm.trans hok
    · rename_i t ht
      obtain rfl : t = u := Except.ok.inj (ht.symm.trans hok)
      exact ⟨hthen.result, hthen.rest⟩
  · exact absurd (h.symm.trans hf) (List.cons_ne_nil t ts).symm

end Mirrors

variable {f : Feed} {ts : List Token}

theorem items_mirrors (expectItem : Bool) (hf : f.remaining = ts) :
    Mirrors Eq (items expectItem f) (Parse.items expectItem ts) := by
  induction ts generalizing f expectItem with
  | nil =>
      rw [items, Parse.items]
      exact .taking_end hf
  | cons t ts ih =>
      have hitem (e : Expr) (hrest : f.next.2.remaining = ts) :
          Mirrors Eq ((items false f.next.2).map (e :: ·)) ((Parse.items false ts).map (e :: ·)) :=
        (ih false hrest).map fun _ _ hes => congrArg (e :: ·) hes
      rw [items]
      cases hk : t.kind <;> cases expectItem <;> simp only [Parse.items, hk] <;>
        refine .taking hf fun _ hrest => ?_ <;> simp only [hk]
      case squareClose.false | squareClose.true => exact .done rfl hrest
      case comma.false => exact ih true hrest
      case value.true | name.true => exact hitem _ hrest
      all_goals exact .fail hrest

def SameInside (inner : Enclosed f) (inner' : Parse.Enclosed ts) : Prop := inner.1 = inner'.1

theorem enclosed_mirrors (nested : Nat) (hf : f.remaining = ts) :
    Mirrors SameInside (enclosed nested f) (Parse.enclosed nested ts) := by
  induction ts generalizing f nested with
  | nil =>
      rw [enclosed, Parse.enclosed]
      exact .taking_end hf
  | cons t ts ih =>
      have htake (n : Nat) (ht : f.next.1 = .ok t) (hrest : f.next.2.remaining = ts) :
          Mirrors SameInside
            ((enclosed n f.next.2).map fun inner => (⟨t :: inner.1, Nat.succ_le_of_lt
              (Nat.lt_of_le_of_lt inner.2 (next_shorter ht))⟩ : Enclosed f))
            ((Parse.enclosed n ts).map fun inner =>
              (⟨t :: inner.1, Nat.succ_le_succ inner.2⟩ : Parse.Enclosed (t :: ts))) :=
        (ih n hrest).map fun _ _ hinner => congrArg (t :: ·) hinner
      rw [enclosed]
      cases hk : t.kind <;> cases nested <;> simp only [Parse.enclosed, hk] <;>
        refine .taking hf fun ht hrest => ?_ <;> simp only [hk]
      case blockEnd.zero | blockEnd.succ => exact .fail hrest
      case roundClose.zero => exact .done rfl hrest
      all_goals exact htake _ ht hrest

theorem inside_mirrors {g rest : Feed} {inner left : List Token} {o : Outcome Expr g}
    {r : Reading Expr inner} (h : Mirrors Eq o r) (hrest : rest.remaining = left) :
    Mirrors (@Eq Expr)
      (match o.result, o.rest.peek.1 with
        | .error e, _ => Outcome.fail e rest
        | .ok e, none => Outcome.done e rest
        | .ok _, some t => Outcome.fail (.blame .inParentheses t) rest)
      (match r.result, r.rest with
        | .ok e, [] => .done e left
        | .ok _, t :: _ => .fail (.blame .inParentheses t) left
        | .error e, _ => .fail e left) := by
  obtain ⟨result, taken, behind, hreads⟩ := o
  obtain ⟨result', behind', hle⟩ := r
  obtain ⟨hresult, hbehind⟩ := h
  simp only at hresult hbehind ⊢
  cases hresult with
  | error h =>
      obtain rfl := h
      exact .fail hrest
  | ok h =>
      obtain rfl := h
      rcases behind.peek_cases with ⟨t, ts, hts, hpeek⟩ | ⟨hts, hpeek⟩ <;>
        rw [hpeek, ← hbehind, hts]
      · exact .fail hrest
      · exact .done rfl hrest

mutual

theorem expression_mirrors (room min : Nat) {f : Feed} {ts : List Token} (hf : f.remaining = ts) :
    Mirrors Eq (expression room min f) (Parse.expression room min ts) := by
  rw [expression, Parse.expression]
  refine (operand_mirrors room hf).andThen ?_
  rintro left _ rest behind hle hle' rfl hbehind
  exact climb_mirrors room min left hbehind
termination_by 2 * ts.length + 1
decreasing_by all_goals omega

theorem climb_mirrors (room min : Nat) (left : Expr) {f : Feed} {ts : List Token}
    (hf : f.remaining = ts) : Mirrors Eq (climb room min left f) (Parse.climb room min left ts) := by
  rw [climb]
  refine .looking hf fun _ hpeek => ?_
  match ts with
  | [] =>
      rw [Parse.climb]
      exact .done rfl hpeek
  | t :: ts =>
      rw [Parse.climb, List.head?_cons]
      simp only
      cases t.operatorAbove? min with
      | none => exact .done rfl hpeek
      | some op =>
          refine .taking hpeek fun _ hrest => ?_
          refine (expression_mirrors room op.precedence hrest).andThen ?_
          rintro right _ rest behind hle hle' rfl hbehind
          exact climb_mirrors room min (.binary op left right) hbehind
termination_by 2 * ts.length
decreasing_by all_goals simp only [List.length_cons]; omega

theorem operand_mirrors (room : Nat) {f : Feed} {ts : List Token} (hf : f.remaining = ts) :
    Mirrors Eq (operand room f) (Parse.operand room ts) := by
  match ts with
  | [] =>
      rw [operand, Parse.operand]
      exact .taking_end hf
  | t :: ts =>
      rw [operand, Parse.operand.eq_def]
      cases hk : t.kind <;> simp only [hk]
      case roundOpen =>
        cases room <;> refine .taking hf fun ht hrest => ?_ <;> simp only [hk]
        case zero => exact .fail hrest
        case succ room =>
          refine (enclosed_mirrors 0 hrest).andThen ?_
          rintro inner ⟨inner', hinner⟩ rest behind hle hle' rfl hbehind
          exact inside_mirrors (expression_mirrors room 0 (remaining_ofTokens inner.1)) hbehind
      case operator op =>
        cases hunary : op.isUnary <;> refine .taking hf fun _ hrest => ?_ <;> simp only [hk, hunary]
        case false => exact .fail hrest
        case true => exact (operand_mirrors room hrest).map fun _ _ he => congrArg (Expr.unary op) he
      all_goals
        refine .taking hf fun _ hrest => ?_
        simp only [hk]
      case value | name => exact .done rfl hrest
      case squareOpen => exact (items_mirrors true hrest).map fun _ _ hes => congrArg Expr.list hes
      all_goals exact .fail hrest
termination_by 2 * ts.length
decreasing_by all_goals simp only [List.length_cons]; omega

end

/-- The tree or the complaint is that of reading the tokens that remain, and so is what is left. -/
theorem parse_mirrors (hf : f.remaining = ts) : Mirrors Eq (parse f) (TemplateExpr.parse ts) := by
  refine (expression_mirrors maxNesting 0 hf).andThen ?_
  rintro e _ rest left hle hle' rfl hleft
  refine .looking hleft fun _ hpeek => ?_
  cases left with
  | nil => exact .done rfl hpeek
  | cons t left =>
      simp only [List.head?_cons]
      cases t.kind.isBlockEnd with
      | true => exact .done rfl hpeek
      | false => exact .fail hpeek

end Feed

end TemplateExpr
