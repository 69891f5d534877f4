import Mathlib.Algebra.Order.Ring.Nat
import TemplateExpr.Proofs.Evaluation.Fitting
import TemplateExpr.Report.Diagnostic

namespace TemplateExpr

open Diagnostic (Label)

/-- A fault of values that an operator is applied to. Only values that do not fit reach a limit. -/
inductive Fault.OfOperands (fits : Prop) : Fault → Prop
  | type {f : Fault} (h : Label.ofFault? f = some .type) : OfOperands fits f
  | arithmetic {f : Fault} (h : Label.ofFault? f = some .arithmetic) : OfOperands fits f
  | limit {l : Limit} (h : ¬ fits) : OfOperands fits (.limit l)

theorem Fault.OfOperands.of_imp {fits others : Prop} {f : Fault} (h : f.OfOperands fits)
    (himp : others → fits) : f.OfOperands others := by
  cases h with
  | type h => exact .type h
  | arithmetic h => exact .arithmetic h
  | limit h => exact .limit (mt himp h)

inductive Judged {α : Type} (fits : Prop) : Except Fault α → Prop
  | ok {a : α} : Judged fits (.ok a)
  | error {f : Fault} (h : f.OfOperands fits) : Judged fits (.error f)

theorem Judged.of_error {α : Type} {fits : Prop} {r : Except Fault α} {f : Fault} (h : Judged fits r)
    (hr : r = .error f) : f.OfOperands fits := by
  cases h with
  | ok => cases hr
  | error h => exact Except.error.inj hr ▸ h

theorem Judged.map {α β : Type} {fits : Prop} {r : Except Fault α} (h : Judged fits r) (f : α → β) :
    Judged fits (r.map f) := by
  cases h with
  | ok => exact .ok
  | error h => exact .error h

theorem Limit.writable_of_natAbs_le {n : Int} (h : n.natAbs ≤ 2 ^ 128) : writable n = true := by
  have hpow : 10 ^ 128 < 10 ^ maxDigits := by
    gcongr <;> decide
  rw [writable, decide_eq_true_eq, Nat.pow_eq]
  omega

theorem Binary64.ofInt?_eq_some {n : Int} (h : n.natAbs < overflow) : ofInt? n = some (.ofInt n) :=
  if_pos h

theorem Value.Fits.natAbs_le {n : Int} (h : (Value.integer n).Fits) : n.natAbs ≤ 2 ^ 63 := by
  cases h with
  | integer h => omega

namespace Value

theorem checkRange_judged {fits : Prop} {n : Int} (h : fits → Limit.writable n = true) :
    Judged fits (checkRange n) := by
  unfold checkRange
  cases inRange n with
  | true => exact .ok
  | false =>
      cases hw : Limit.writable n with
      | true => exact .error (.arithmetic rfl)
      | false => exact .error (.limit fun hf => Bool.false_ne_true (hw.symm.trans (h hf)))

mutual

theorem compare_fault {a b : Value} {f : Fault} (h : compare a b = .error f) :
    ∃ k l, f = .incomparable k l := by
  cases a <;> cases b
  case list.list as bs => exact compareItems_fault h
  all_goals cases h
  all_goals exact ⟨_, _, rfl⟩

theorem compareItems_fault {as bs : List Value} {f : Fault} (h : compareItems as bs = .error f) :
    ∃ k l, f = .incomparable k l := by
  match as, bs with
  | [], [] | [], _ :: _ | _ :: _, [] => cases h
  | a :: as, b :: bs =>
      rw [compareItems] at h
      cases hab : compare a b with
      | error fault =>
          rw [hab] at h
          cases h
          exact compare_fault hab
      | ok o =>
          rw [hab] at h
          cases o with
          | eq => exact compareItems_fault h
          | lt | gt => cases h

end

theorem compare_judged (fits : Prop) (a b : Value) : Judged fits (compare a b) := by
  cases hab : compare a b with
  | ok o => exact .ok
  | error f =>
      obtain ⟨k, l, rfl⟩ := compare_fault hab
      exact .error (.type rfl)

end Value

namespace Operator

open Value

variable {op : Operator} {a b : Value} {m n : Int}

theorem natAbs_onIntegers_le (op : Operator) (m n : Int) :
    (op.onIntegers m n).natAbs ≤ m.natAbs * n.natAbs + (m.natAbs + n.natAbs) := by
  have hadd := Int.natAbs_add_le m n
  have hsub := Int.natAbs_sub_le m n
  have hmul := Int.natAbs_mul m n
  cases op with
  | div =>
      rw [onIntegers_div, Int.natAbs_tdiv]
      exact (Nat.div_le_self _ _).trans (by omega)
  | mod =>
      rw [onIntegers_mod, Int.natAbs_tmod]
      exact (Nat.mod_le _ _).trans (by omega)
  | _ =>
      simp only [onIntegers]
      omega

theorem onIntegers_writable (hm : (Value.integer m).Fits) (hn : (Value.integer n).Fits) :
    Limit.writable (op.onIntegers m n) = true := by
  have hmle := hm.natAbs_le
  have hnle := hn.natAbs_le
  have hproduct := Nat.mul_le_mul hmle hnle
  have hle := natAbs_onIntegers_le op m n
  exact Limit.writable_of_natAbs_le (by omega)

theorem neg_writable (h : (Value.integer n).Fits) : Limit.writable (-n) = true := by
  have hle := h.natAbs_le
  exact Limit.writable_of_natAbs_le (by omega)

theorem widened_of_fits (h : (Value.integer n).Fits) : widened n = .ok (.ofInt n) := by
  have hlt : n.natAbs < Binary64.overflow := Nat.lt_of_le_of_lt h.natAbs_le (by decide +kernel)
  unfold widened
  simp only [Binary64.ofInt?_eq_some hlt]

theorem widened_judged {fits : Prop} (h : fits → (Value.integer n).Fits) : Judged fits (widened n) := by
  by_cases hfits : fits
  · rw [widened_of_fits (h hfits)]
    exact .ok
  · unfold widened
    split
    · exact .ok
    · exact .error (.limit hfits)

theorem divisorFault?_eq_some {f : Fault} (h : op.divisorFault? b = some f) :
    (op = .div ∨ op = .mod) ∧ b.isZero = true ∧ Label.ofFault? f = some .arithmetic := by
  unfold divisorFault? at h
  split at h
  · split at h <;> cases h
    exact ⟨.inl rfl, ‹_›, rfl⟩
  · split at h <;> cases h
    exact ⟨.inr rfl, ‹_›, rfl⟩
  · cases h

theorem guarded_judged {fits : Prop} {result : Except Fault Value} (h : Judged fits result) :
    Judged fits (match op.divisorFault? b with
      | some fault => .error fault
      | none => result) := by
  cases hf : op.divisorFault? b with
  | none => exact h
  | some fault => exact .error (.arithmetic (divisorFault?_eq_some hf).2.2)

theorem arithmetic_judged (op : Operator) (a b : Value) :
    Judged (a.Fits ∧ b.Fits) (arithmetic op a b) := by
  rw [arithmetic.eq_def]
  simp only []
  split
  · exact guarded_judged ((checkRange_judged fun h => onIntegers_writable h.1 h.2).map _)
  · exact guarded_judged ((widened_judged And.left).map _)
  · exact guarded_judged ((widened_judged And.right).map _)
  · exact guarded_judged .ok
  · exact .error (.type rfl)

theorem applyBinary_judged (hop : op ≠ .not) : Judged (a.Fits ∧ b.Fits) (op.applyBinary a b) := by
  cases op with
  | eq | ne | and | or => exact .ok
  | lt | le | gt | ge => exact (compare_judged _ a b).map _
  | add =>
      rw [applyBinary, join.eq_def]
      split
      · exact .ok
      · exact .ok
      · exact arithmetic_judged .add _ _
  | sub | mul | div | mod =>
      rw [applyBinary]
      exact arithmetic_judged _ a b
  | not => exact absurd rfl hop

theorem applyUnary_judged (hop : op = .not ∨ op = .sub ∨ op = .add) :
    Judged a.Fits (op.applyUnary a) := by
  rcases hop with rfl | rfl | rfl
  · exact .ok
  · cases a with
    | integer n => exact (checkRange_judged neg_writable).map _
    | float x => exact .ok
    | boolean | string | list => exact .error (.type rfl)
  · cases a with
    | integer | float => exact .ok
    | boolean | string | list => exact .error (.type rfl)

end Operator

end TemplateExpr
