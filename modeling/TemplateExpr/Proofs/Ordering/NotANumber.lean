import TemplateExpr.Operator.Apply
import TemplateExpr.Proofs.Ordering.Comparison

namespace TemplateExpr.Operator

open Value (Blurred)

variable {a b : Value} {o : Ordering}

theorem ordered_of_compare {test : Ordering → Bool} (h : Value.compare a b = .ok o) :
    ordered test a b = .ok (.boolean (test o)) := by
  rw [ordered, h]
  rfl

theorem ok_boolean_inj {x y : Bool} :
    (Except.ok (.boolean x) : Except Fault Value) = .ok (.boolean y) ↔ x = y := by
  simp

/-- Values that can be compared are at most each other when they are less or equal, unless it takes
floats that are not numbers to tell them apart. -/
theorem ordered_agrees_iff (h : Value.compare a b = .ok o) :
    (((le.applyBinary a b = .ok (.boolean true) ↔
        lt.applyBinary a b = .ok (.boolean true) ∨ eq.applyBinary a b = .ok (.boolean true)) ∧
      (ge.applyBinary a b = .ok (.boolean true) ↔
        gt.applyBinary a b = .ok (.boolean true) ∨ eq.applyBinary a b = .ok (.boolean true))) ↔
      ¬ Blurred a b) ∧
    (Blurred a b →
      le.applyBinary a b = .ok (.boolean true) ∧ ge.applyBinary a b = .ok (.boolean true) ∧
      lt.applyBinary a b = .ok (.boolean false) ∧ gt.applyBinary a b = .ok (.boolean false) ∧
      eq.applyBinary a b = .ok (.boolean false)) := by
  have heq := (Value.compare_eq_ok_iff.1 h).eq_iff
  simp only [applyBinary, ordered_of_compare h, ok_boolean_inj]
  by_cases hblurred : Blurred a b
  · have hequal := hblurred.equal_eq_false
    obtain rfl : o = .eq := heq.2 (.inr hblurred)
    simp [hblurred, hequal]
  · cases o <;> simp_all

theorem ordered_agrees_lists :
    let a : Value := .list [.integer 1, .float (0.0 / 0.0)]
    let b : Value := .list [.integer 1, .integer 2]
    Value.compare a b = .ok .eq ∧ Blurred a b ∧ le.applyBinary a b = .ok (.boolean true) ∧
      lt.applyBinary a b = .ok (.boolean false) ∧ eq.applyBinary a b = .ok (.boolean false) := by
  intro a b
  have hblurred : Blurred a b := .tail rfl (.head (.number rfl rfl (.inl (by decide))) rfl)
  have hab : Value.compare a b = .ok .eq := by decide +kernel
  obtain ⟨hle, -, hlt, -, heq⟩ := (ordered_agrees_iff hab).2 hblurred
  exact ⟨hab, hblurred, hle, hlt, heq⟩

/-- What is not a number is no more than one, though it is neither less than one nor equal to it. -/
theorem nan_le_one :
    le.applyBinary (.float (0.0 / 0.0)) (.integer 1) = .ok (.boolean true) ∧
    lt.applyBinary (.float (0.0 / 0.0)) (.integer 1) = .ok (.boolean false) ∧
    eq.applyBinary (.float (0.0 / 0.0)) (.integer 1) = .ok (.boolean false) :=
  ⟨rfl, rfl, rfl⟩

end TemplateExpr.Operator
