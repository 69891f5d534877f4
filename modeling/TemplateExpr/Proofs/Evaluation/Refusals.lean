import TemplateExpr.Proofs.Evaluation.Integers
import TemplateExpr.Proofs.Ordering.Comparable

namespace TemplateExpr.Operator

open Diagnostic (Label)
open Value (Comparable)

def Takes : Operator → Value → Value → Prop
  | .eq, _, _ | .ne, _, _ | .and, _, _ | .or, _, _ => True
  | .lt, a, b | .le, a, b | .gt, a, b | .ge, a, b => Comparable a b
  | .add, a, b =>
    (a.isNumeric = true ∧ b.isNumeric = true) ∨ (a.kind = .string ∧ b.kind = .string) ∨
      (a.kind = .list ∧ b.kind = .list)
  | .sub, a, b | .mul, a, b | .div, a, b | .mod, a, b => a.isNumeric = true ∧ b.isNumeric = true
  | .not, _, _ => False

def zeros : List Value := [.integer 0, .float 0.0, .float (-0.0)]

/-- The operands without a result. -/
inductive Undefined : Operator → Value → Value → Prop
  | divisor {op : Operator} {a b : Value} (hop : op = .div ∨ op = .mod) (hb : b ∈ zeros) :
      Undefined op a b
  | range {op : Operator} {m n k : ℤ} (hk : op.unbounded? m n = some k)
      (h : ¬ (-2 ^ 63 ≤ k ∧ k ≤ 2 ^ 63 - 1)) : Undefined op (.integer m) (.integer n)

inductive Decided (takes undefined : Prop) : Except Fault Value → Prop
  | mistyped {f : Fault} (h : ¬ takes) (hf : Label.ofFault? f = some .type) :
      Decided takes undefined (.error f)
  | undefined {f : Fault} (h : takes) (hu : undefined) (hf : Label.ofFault? f = some .arithmetic) :
      Decided takes undefined (.error f)
  | ok {v : Value} (h : takes) (hu : ¬ undefined) : Decided takes undefined (.ok v)

variable {op : Operator} {a b : Value} {takes undefined : Prop} {outcome : Except Fault Value}
  {f : Fault} {label : Label}

theorem failsAs_error_iff : FailsAs label (.error f) ↔ Label.ofFault? f = some label := by
  constructor
  · rintro ⟨g, hg, hlabel⟩
    cases hg
    exact hlabel
  · exact fun h => ⟨f, rfl, h⟩

theorem Decided.of_iff {others : Prop} (h : Decided takes undefined outcome)
    (hiff : takes ↔ others) : Decided others undefined outcome := propext hiff ▸ h

theorem Decided.failsAs_type_iff (h : Decided takes undefined outcome) :
    FailsAs .type outcome ↔ ¬ takes := by
  cases h with
  | mistyped h hf => exact iff_of_true ⟨_, rfl, hf⟩ h
  | undefined h _ hf =>
      rw [failsAs_error_iff, hf]
      exact iff_of_false nofun (not_not_intro h)
  | ok h _ => exact iff_of_false (not_failsAs_ok _ _) (not_not_intro h)

theorem Decided.failsAs_arithmetic_iff (h : Decided takes undefined outcome) :
    FailsAs .arithmetic outcome ↔ takes ∧ undefined := by
  cases h with
  | mistyped h hf =>
      rw [failsAs_error_iff, hf]
      exact iff_of_false nofun fun ht => h ht.1
  | undefined h hu hf => exact iff_of_true ⟨_, rfl, hf⟩ ⟨h, hu⟩
  | ok _ hu => exact iff_of_false (not_failsAs_ok _ _) fun ht => hu ht.2

theorem Decided.label_eq (h : Decided takes undefined (.error f)) :
    Label.ofFault? f = some .type ∨ Label.ofFault? f = some .arithmetic := by
  cases h with
  | mistyped _ hf => exact .inl hf
  | undefined _ _ hf => exact .inr hf

theorem isZero_iff {v : Value} : v.isZero = true ↔ v ∈ zeros := by
  simp only [zeros, List.mem_cons, List.not_mem_nil, or_false]
  cases v with
  | integer n => simp [isZero_integer]
  | float x => simp [Value.isZero, Value.place?, Binary64.Place.ofFloat?_eq_zero_iff]
  | boolean | string | list => simp [Value.isZero, Value.place?]

theorem divisorFault?_eq_none (h : op.divisorFault? b = none) :
    ¬ ((op = .div ∨ op = .mod) ∧ b ∈ zeros) := by
  rintro ⟨rfl | rfl, hb⟩ <;> simp [divisorFault?, isZero_iff.2 hb] at h

theorem not_undefined_of_unbounded? (h : ∀ m n, op.unbounded? m n = none) : ¬ op.Undefined a b := by
  intro hu
  cases hu with
  | divisor hop _ => rcases hop with rfl | rfl <;> cases h 0 0
  | range hk _ => cases (h _ _).symm.trans hk

theorem not_undefined_of_divisor (h : op.divisorFault? b = none)
    (hkind : ¬ (a.kind = .integer ∧ b.kind = .integer)) : ¬ op.Undefined a b := by
  intro hu
  cases hu with
  | divisor hop hb => exact divisorFault?_eq_none h ⟨hop, hb⟩
  | range => exact hkind ⟨rfl, rfl⟩

theorem arithmetic_mistyped (h : ¬ (a.isNumeric = true ∧ b.isNumeric = true)) :
    op.arithmetic a b = .error (.badOperands op a.kind b.kind) := by
  cases a <;> cases b <;> first | rfl | exact absurd ⟨rfl, rfl⟩ h

theorem exactOrRefused_decided {m n k : ℤ} (ht : takes) (hk : op.unbounded? m n = some k)
    (h : op.divisorFault? (.integer n) = none) :
    Decided takes (op.Undefined (.integer m) (.integer n)) (exactOrRefused k) := by
  unfold exactOrRefused
  split
  · rename_i hfits
    apply Decided.ok ht
    intro hu
    cases hu with
    | divisor hop hb => exact divisorFault?_eq_none h ⟨hop, hb⟩
    | range hk' hrange =>
        cases hk.symm.trans hk'
        exact hrange hfits
  · rename_i hrange
    exact .undefined ht (.range hk hrange) rfl

theorem arithmetic_decided (op : Operator) (hop : ∀ m n, op.unbounded? m n ≠ none) (ha : a.Fits)
    (hb : b.Fits) :
    Decided (a.isNumeric = true ∧ b.isNumeric = true) (op.Undefined a b) (op.arithmetic a b) := by
  by_cases hnumeric : a.isNumeric = true ∧ b.isNumeric = true
  · cases hfault : op.divisorFault? b with
    | some fault =>
        obtain ⟨hdiv, hzero, hlabel⟩ := divisorFault?_eq_some hfault
        rw [arithmetic_of_divisorFault? hnumeric.1 hnumeric.2 hfault]
        exact .undefined hnumeric (.divisor hdiv (isZero_iff.1 hzero)) hlabel
    | none =>
        cases a <;> cases b
        case integer.integer m n =>
          obtain ⟨k, hk⟩ := Option.ne_none_iff_exists'.1 (hop m n)
          rw [arithmetic_integers op ha hb hk hfault]
          exact exactOrRefused_decided hnumeric hk hfault
        case integer.float m y =>
          simp only [arithmetic, hfault, widened_of_fits ha]
          exact .ok hnumeric (not_undefined_of_divisor hfault (by simp [Value.kind]))
        case float.integer x n =>
          simp only [arithmetic, hfault, widened_of_fits hb]
          exact .ok hnumeric (not_undefined_of_divisor hfault (by simp [Value.kind]))
        case float.float x y =>
          simp only [arithmetic, hfault]
          exact .ok hnumeric (not_undefined_of_divisor hfault (by simp [Value.kind]))
        all_goals simp [Value.isNumeric] at hnumeric
  · rw [arithmetic_mistyped hnumeric]
    exact .mistyped hnumeric rfl

theorem ordered_decided (test : Ordering → Bool) (hop : ∀ m n, op.unbounded? m n = none)
    (a b : Value) :
    Decided (Comparable a b) (op.Undefined a b) (ordered test a b) := by
  rw [ordered]
  cases hab : Value.compare a b with
  | ok o => exact .ok (Value.exists_compare_iff.1 ⟨o, hab⟩) (not_undefined_of_unbounded? hop)
  | error f =>
      obtain ⟨k, l, rfl⟩ := Value.compare_fault hab
      apply Decided.mistyped
      · intro h
        obtain ⟨o, ho⟩ := h.succeeds
        cases hab.symm.trans ho
      · rfl

theorem join_decided (ha : a.Fits) (hb : b.Fits) :
    Decided (Takes .add a b) (Undefined .add a b) (join a b) := by
  have harithmetic := arithmetic_decided .add (fun _ _ => nofun) ha hb
  cases a <;> cases b
  case string.string s t =>
    exact .ok (.inr (.inl ⟨rfl, rfl⟩)) (not_undefined_of_divisor rfl (by simp [Value.kind]))
  case list.list as bs =>
    exact .ok (.inr (.inr ⟨rfl, rfl⟩)) (not_undefined_of_divisor rfl (by simp [Value.kind]))
  all_goals
    refine harithmetic.of_iff ?_
    simp [Takes, Value.kind, Value.isNumeric]

theorem applyBinary_decided (hop : op.isBinary = true) (ha : a.Fits) (hb : b.Fits) :
    Decided (op.Takes a b) (op.Undefined a b) (op.applyBinary a b) := by
  cases op with
  | eq | ne | and | or => exact .ok trivial (not_undefined_of_unbounded? fun _ _ => rfl)
  | lt | le | gt | ge => exact ordered_decided _ (fun _ _ => rfl) a b
  | add => exact join_decided ha hb
  | sub | mul | div | mod => exact arithmetic_decided _ (fun _ _ => nofun) ha hb
  | not => cases hop

/-- An operator fails for the kinds of its operands when it does not take them, and for their values
when they have no result. It does not fail for anything else, and the kinds come first. -/
theorem binary_fails_iff (hop : op.isBinary = true) (ha : a.Fits) (hb : b.Fits) :
    (op ∈ [.eq, .ne, .and, .or] → ∃ x, op.applyBinary a b = .ok (.boolean x)) ∧
    (FailsAs .type (op.applyBinary a b) ↔ ¬ op.Takes a b) ∧
    (FailsAs .arithmetic (op.applyBinary a b) ↔ op.Takes a b ∧ op.Undefined a b) ∧
    (∀ f, op.applyBinary a b = .error f →
      Label.ofFault? f = some .type ∨ Label.ofFault? f = some .arithmetic) ∧
    (¬ op.Takes a b → op.applyBinary a b ≠ .error .divisionByZero ∧
      op.applyBinary a b ≠ .error .moduloByZero) := by
  have h := applyBinary_decided hop ha hb
  refine ⟨fun hmem => ?_, h.failsAs_type_iff, h.failsAs_arithmetic_iff, fun f hf => ?_,
    fun ht => ?_⟩
  · cases op with
    | eq | ne | and | or => exact ⟨_, rfl⟩
    | _ => simp at hmem
  · exact (hf ▸ h).label_eq
  · have hnone : ¬ FailsAs .arithmetic (op.applyBinary a b) := fun hu =>
      ht (h.failsAs_arithmetic_iff.1 hu).1
    exact ⟨fun hf => hnone ⟨_, hf, rfl⟩, fun hf => hnone ⟨_, hf, rfl⟩⟩

theorem binary_fails_iff_zero :
    let a : Value := .string "a"
    let b : Value := .float (-0.0)
    mod.isBinary = true ∧ a.Fits ∧ b.Fits ∧ ¬ mod.Takes a b ∧ FailsAs .type (mod.applyBinary a b) ∧
      mod.applyBinary a b ≠ .error .moduloByZero ∧
      FailsAs .arithmetic (mod.applyBinary (.integer 1) b) := by
  intro a b
  have ha : a.Fits := .string
  have hb : b.Fits := .float
  have htakes : ¬ mod.Takes a b := fun h => nomatch h.1
  obtain ⟨-, htype, -, -, hzero⟩ := @binary_fails_iff mod a b rfl ha hb
  have hone : mod.Takes (.integer 1) b ∧ mod.Undefined (.integer 1) b :=
    ⟨⟨rfl, rfl⟩, .divisor (.inr rfl) (by simp [b, zeros])⟩
  obtain ⟨-, -, harithmetic, -⟩ :=
    @binary_fails_iff mod (.integer 1) b rfl (.integer (by decide)) hb
  exact ⟨rfl, ha, hb, htakes, htype.2 htakes, (hzero htakes).2, harithmetic.2 hone⟩

end TemplateExpr.Operator
