import Mathlib.Data.Rat.Floor
import TemplateExpr.Proofs.Evaluation.Operands
import TemplateExpr.Proofs.Ordering.Number

namespace TemplateExpr.Operator

open Diagnostic (Label)

/-- The whole number next to a fraction on the side of zero. -/
def towardZero (q : ℚ) : ℤ := if 0 ≤ q then ⌊q⌋ else ⌈q⌉

/-- The integer that an operator makes of two integers if there are no bounds to it. -/
def unbounded? : Operator → ℤ → ℤ → Option ℤ
  | .add, a, b => some (a + b)
  | .sub, a, b => some (a - b)
  | .mul, a, b => some (a * b)
  | .div, a, b => some (towardZero (a / b))
  | .mod, a, b => some (a - towardZero (a / b) * b)
  | _, _, _ => none

/-- Taking `q` times `b` from `a` leaves less than another `b`, and nothing beyond zero. -/
structure Leaves (a b q r : ℤ) : Prop where
  whole : a = q * b + r
  small : |r| < |b|
  side : r = 0 ∨ r.sign = a.sign

def FailsAs (label : Label) (outcome : Except Fault Value) : Prop :=
  ∃ f, outcome = .error f ∧ Label.ofFault? f = some label

def exactOrRefused (n : ℤ) : Except Fault Value :=
  if -2 ^ 63 ≤ n ∧ n ≤ 2 ^ 63 - 1 then .ok (.integer n) else .error (.outOfRange n)

variable {a b q r n : ℤ} {op : Operator}

theorem towardZero_neg (q : ℚ) : towardZero (-q) = -towardZero q := by
  unfold towardZero
  rcases lt_trichotomy q 0 with hq | rfl | hq
  · rw [if_pos (by linarith), if_neg (by linarith), Int.floor_neg]
  · simp
  · rw [if_neg (by linarith), if_pos hq.le, Int.ceil_neg]

theorem towardZero_div (a b : ℤ) : towardZero (a / b) = a.tdiv b := by
  have hnat (m n : ℕ) : towardZero ((m : ℚ) / n) = (m : ℤ).tdiv n := by
    rw [towardZero, if_pos (by positivity), Rat.floor_natCast_div_natCast]
    rfl
  obtain ⟨m, rfl | rfl⟩ := Int.eq_nat_or_neg a <;> obtain ⟨n, rfl | rfl⟩ := Int.eq_nat_or_neg b
  all_goals simp [neg_div, div_neg, towardZero_neg, hnat]

theorem onIntegers_of_unbounded? (h : op.unbounded? a b = some n) : op.onIntegers a b = n := by
  cases op <;> cases h
  case div => rw [onIntegers_div, towardZero_div]
  case mod => rw [onIntegers_mod, towardZero_div, Int.tmod_def, mul_comm]
  all_goals rfl

theorem sign_tmod (hr : a.tmod b ≠ 0) : (a.tmod b).sign = a.sign := by
  rcases lt_trichotomy a 0 with ha | rfl | ha
  · have hle : a.tmod b ≤ 0 := by
      have h := Int.tmod_nonneg b (Int.neg_nonneg_of_nonpos ha.le)
      rw [Int.neg_tmod] at h
      omega
    rw [Int.sign_eq_neg_one_of_neg ha, Int.sign_eq_neg_one_of_neg (lt_of_le_of_ne hle hr)]
  · exact absurd (Int.zero_tmod b) hr
  · have hge := Int.tmod_nonneg b ha.le
    rw [Int.sign_eq_one_of_pos ha, Int.sign_eq_one_of_pos (lt_of_le_of_ne hge hr.symm)]

theorem leaves_tmod (hb : b ≠ 0) (a : ℤ) : Leaves a b (a.tdiv b) (a.tmod b) := by
  constructor
  · rw [mul_comm, Int.mul_tdiv_add_tmod]
  · rw [Int.abs_eq_natAbs, Int.abs_eq_natAbs, Int.natAbs_tmod]
    exact Int.ofNat_lt.2 (Nat.mod_lt _ (Int.natAbs_pos.2 hb))
  · by_cases hr : a.tmod b = 0
    · exact .inl hr
    · exact .inr (sign_tmod hr)

theorem Leaves.nonneg (h : Leaves a b q r) (ha : 0 ≤ a) : 0 ≤ r := by
  rcases h.side with rfl | hside
  · exact le_rfl
  · exact Int.sign_nonneg_iff.1 (hside ▸ Int.sign_nonneg_iff.2 ha)

theorem Leaves.nonpos (h : Leaves a b q r) (ha : a ≤ 0) : r ≤ 0 := by
  rcases h.side with rfl | hside
  · exact le_rfl
  · exact Int.sign_nonpos_iff.1 (hside ▸ Int.sign_nonpos_iff.2 ha)

theorem Leaves.unique {q' r' : ℤ} (h : Leaves a b q r) (h' : Leaves a b q' r') :
    q' = q ∧ r' = r := by
  have hr := h.small
  have hr' := h'.small
  -- on the same side of zero, so less than the divisor apart
  have hapart : |r - r'| < |b| := by
    rw [abs_lt] at hr hr' ⊢
    rcases le_total 0 a with ha | ha
    · have := h.nonneg ha
      have := h'.nonneg ha
      omega
    · have := h.nonpos ha
      have := h'.nonpos ha
      omega
  have hmultiple : r - r' = (q' - q) * b := by linarith [h.whole, h'.whole]
  have hdvd : |b| ∣ r - r' := hmultiple ▸ (abs_dvd b _).2 (dvd_mul_left b _)
  have hremainder : r - r' = 0 := Int.eq_zero_of_abs_lt_dvd hdvd hapart
  have hb : b ≠ 0 := abs_pos.1 (lt_of_le_of_lt (abs_nonneg _) hr)
  have hquotient : q' - q = 0 := (mul_eq_zero.1 (hmultiple.symm.trans hremainder)).resolve_right hb
  exact ⟨sub_eq_zero.1 hquotient, (sub_eq_zero.1 hremainder).symm⟩

theorem tdiv_fits_iff (ha : -2 ^ 63 ≤ a ∧ a ≤ 2 ^ 63 - 1) :
    (-2 ^ 63 ≤ a.tdiv b ∧ a.tdiv b ≤ 2 ^ 63 - 1) ↔ ¬ (a = -2 ^ 63 ∧ b = -1) := by
  by_cases hone : b = -1
  · subst hone
    rw [Int.tdiv_neg, Int.tdiv_one]
    omega
  · by_cases htwo : b.natAbs ≤ 1
    · obtain rfl | rfl : b = 0 ∨ b = 1 := by omega
      · rw [Int.tdiv_zero]
        omega
      · rw [Int.tdiv_one]
        omega
    · have hhalf : (a.tdiv b).natAbs ≤ a.natAbs / 2 := by
        rw [Int.natAbs_tdiv]
        exact Nat.div_le_div_left (Nat.lt_of_not_le htwo) two_pos
      omega

theorem isZero_integer (n : ℤ) : (Value.integer n).isZero = decide (n = 0) := by
  have hsteps : (Binary64.stepsPerUnit : ℤ) ≠ 0 :=
    Int.natCast_ne_zero.2 Binary64.stepsPerUnit_pos.ne'
  have hzero : (Value.integer n).place? = some (.at 0) ↔ n = 0 := by
    rw [Value.place?, Binary64.Place.ofInt, Option.some_inj, Binary64.Place.at.injEq, mul_eq_zero,
      or_iff_left hsteps]
  rw [Value.isZero, decide_eq_decide]
  exact hzero

theorem checkRange_eq (h : Limit.writable n = true) :
    (Value.checkRange n).map .integer = exactOrRefused n := by
  rw [Value.checkRange, exactOrRefused]
  by_cases hn : -2 ^ 63 ≤ n ∧ n ≤ 2 ^ 63 - 1
  · rw [if_pos hn, if_pos (Value.inRange_iff.2 hn)]
    rfl
  · rw [if_neg hn, if_neg (mt Value.inRange_iff.1 hn), if_pos h]
    rfl

theorem arithmetic_of_divisorFault? {x y : Value} {f : Fault} (hx : x.isNumeric = true)
    (hy : y.isNumeric = true) (h : op.divisorFault? y = some f) : op.arithmetic x y = .error f := by
  cases x <;> cases y <;> simp_all [arithmetic, Value.isNumeric]

theorem arithmetic_integers (op : Operator) (ha : (Value.integer a).Fits)
    (hb : (Value.integer b).Fits) (hn : op.unbounded? a b = some n) (h : op.divisorFault? (.integer b) = none) :
    op.arithmetic (.integer a) (.integer b) = exactOrRefused n := by
  rw [← onIntegers_of_unbounded? hn, ← checkRange_eq (onIntegers_writable ha hb), arithmetic, h]

theorem not_failsAs_ok (label : Label) (v : Value) : ¬ FailsAs label (.ok v) := by
  rintro ⟨f, hf, -⟩
  cases hf

theorem exactOrRefused_failsAs_iff :
    FailsAs .arithmetic (exactOrRefused n) ↔ ¬ (-2 ^ 63 ≤ n ∧ n ≤ 2 ^ 63 - 1) := by
  unfold exactOrRefused
  split
  · rename_i hn
    exact iff_of_false (not_failsAs_ok _ _) (not_not_intro hn)
  · rename_i hn
    exact iff_of_true ⟨_, rfl, rfl⟩ hn

theorem exactOrRefused_fits (h : -2 ^ 63 ≤ n ∧ n ≤ 2 ^ 63 - 1) :
    exactOrRefused n = .ok (.integer n) := if_pos h

theorem div_integers (ha : (Value.integer a).Fits) (hb : (Value.integer b).Fits) (hne : b ≠ 0) :
    div.applyBinary (.integer a) (.integer b) = exactOrRefused (towardZero (a / b)) :=
  arithmetic_integers .div ha hb rfl (by simp [divisorFault?, isZero_integer, hne])

theorem mod_integers (ha : (Value.integer a).Fits) (hb : (Value.integer b).Fits) (hne : b ≠ 0) :
    mod.applyBinary (.integer a) (.integer b) = .ok (.integer (a.tmod b)) := by
  have hmod : mod.unbounded? a b = some (a.tmod b) := by
    rw [unbounded?, towardZero_div, Int.tmod_def, mul_comm]
  have hle : (a.tmod b).natAbs < b.natAbs := by
    rw [Int.natAbs_tmod]
    exact Nat.mod_lt _ (Int.natAbs_pos.2 hne)
  have hbound := hb.natAbs_le
  have harithmetic := arithmetic_integers .mod ha hb hmod
    (by simp [divisorFault?, isZero_integer, hne])
  rw [exactOrRefused_fits (by omega)] at harithmetic
  exact harithmetic

theorem div_failsAs_iff (ha : (Value.integer a).Fits) (hb : (Value.integer b).Fits) :
    FailsAs .arithmetic (div.applyBinary (.integer a) (.integer b)) ↔
      b = 0 ∨ a = -2 ^ 63 ∧ b = -1 := by
  by_cases hzero : b = 0
  · subst hzero
    have hfault : div.divisorFault? (.integer 0) = some .divisionByZero := by
      simp [divisorFault?, isZero_integer]
    have herror := arithmetic_of_divisorFault? (x := .integer a) rfl rfl hfault
    exact iff_of_true ⟨_, herror, rfl⟩ (.inl rfl)
  · cases ha with | integer ha => ?_
    rw [div_integers (.integer ha) hb hzero, exactOrRefused_failsAs_iff, towardZero_div,
      tdiv_fits_iff ha, not_not, or_iff_right hzero]

theorem mod_failsAs_iff (ha : (Value.integer a).Fits) (hb : (Value.integer b).Fits) :
    FailsAs .arithmetic (mod.applyBinary (.integer a) (.integer b)) ↔ b = 0 := by
  by_cases hzero : b = 0
  · subst hzero
    have hfault : mod.divisorFault? (.integer 0) = some .moduloByZero := by
      simp [divisorFault?, isZero_integer]
    have herror := arithmetic_of_divisorFault? (x := .integer a) rfl rfl hfault
    exact iff_of_true ⟨_, herror, rfl⟩ rfl
  · rw [mod_integers ha hb hzero]
    exact iff_of_false (not_failsAs_ok _ _) hzero

/-- Of two integers with 64 bits sum, difference and product are exact or refused. The quotient is
rounded toward zero, and with the remainder it gives the dividend back; the only quotient that is
refused for its size has a remainder still. -/
theorem integers_exact_or_refused (ha : -2 ^ 63 ≤ a ∧ a ≤ 2 ^ 63 - 1)
    (hb : -2 ^ 63 ≤ b ∧ b ≤ 2 ^ 63 - 1) :
    (add.applyBinary (.integer a) (.integer b) = exactOrRefused (a + b) ∧
      sub.applyBinary (.integer a) (.integer b) = exactOrRefused (a - b) ∧
      mul.applyBinary (.integer a) (.integer b) = exactOrRefused (a * b)) ∧
    ((FailsAs .arithmetic (div.applyBinary (.integer a) (.integer b)) ↔
        b = 0 ∨ a = -2 ^ 63 ∧ b = -1) ∧
      (¬ (b = 0 ∨ a = -2 ^ 63 ∧ b = -1) →
        div.applyBinary (.integer a) (.integer b) = .ok (.integer (towardZero (a / b))))) ∧
    ((FailsAs .arithmetic (mod.applyBinary (.integer a) (.integer b)) ↔ b = 0) ∧
      (b ≠ 0 → ∃ r, mod.applyBinary (.integer a) (.integer b) = .ok (.integer r) ∧
        Leaves a b (towardZero (a / b)) r ∧
        ∀ q' r', Leaves a b q' r' → q' = towardZero (a / b) ∧ r' = r)) ∧
    ((FailsAs .arithmetic (sub.applyUnary (.integer a)) ↔ a = -2 ^ 63) ∧
      (a ≠ -2 ^ 63 → sub.applyUnary (.integer a) = .ok (.integer (-a)))) ∧
    (∀ (op : Operator) (v : Value),
      op.applyBinary (.integer a) (.integer b) = .ok v ∨ op.applyUnary (.integer a) = .ok v →
        v.Fits) := by
  have hx : (Value.integer a).Fits := .integer ha
  have hy : (Value.integer b).Fits := .integer hb
  have hneg : sub.applyUnary (.integer a) = exactOrRefused (-a) := checkRange_eq (neg_writable hx)
  refine ⟨⟨?_, ?_, ?_⟩, ⟨div_failsAs_iff hx hy, fun h => ?_⟩, ⟨mod_failsAs_iff hx hy, fun h => ?_⟩,
    ⟨?_, fun h => ?_⟩, fun op v h => h.elim (applyBinary_fits hx hy) (applyUnary_fits hx)⟩
  · exact arithmetic_integers .add hx hy rfl rfl
  · exact arithmetic_integers .sub hx hy rfl rfl
  · exact arithmetic_integers .mul hx hy rfl rfl
  · obtain ⟨hzero, hleast⟩ := not_or.1 h
    rw [div_integers hx hy hzero, exactOrRefused_fits]
    rw [towardZero_div]
    exact (tdiv_fits_iff ha).2 hleast
  · have hleaves := leaves_tmod h a
    rw [← towardZero_div] at hleaves
    exact ⟨a.tmod b, mod_integers hx hy h, hleaves, fun q' r' h' => hleaves.unique h'⟩
  · rw [hneg, exactOrRefused_failsAs_iff]
    omega
  · rw [hneg, exactOrRefused_fits (by omega)]

theorem integers_exact_or_refused_least :
    (-2 ^ 63 ≤ (-2 ^ 63 : ℤ) ∧ (-2 ^ 63 : ℤ) ≤ 2 ^ 63 - 1) ∧
      (-2 ^ 63 ≤ (-1 : ℤ) ∧ (-1 : ℤ) ≤ 2 ^ 63 - 1) ∧
      FailsAs .arithmetic (div.applyBinary (.integer (-2 ^ 63)) (.integer (-1))) ∧
      mod.applyBinary (.integer (-2 ^ 63)) (.integer (-1)) = .ok (.integer 0) := by
  have ha : -2 ^ 63 ≤ (-2 ^ 63 : ℤ) ∧ (-2 ^ 63 : ℤ) ≤ 2 ^ 63 - 1 := by decide
  have hb : -2 ^ 63 ≤ (-1 : ℤ) ∧ (-1 : ℤ) ≤ 2 ^ 63 - 1 := by decide
  obtain ⟨-, ⟨hdiv, -⟩, ⟨-, hmod⟩, -⟩ := integers_exact_or_refused ha hb
  obtain ⟨r, hr, -, hunique⟩ := hmod (by decide)
  have hzero : Leaves (-2 ^ 63) (-1) (2 ^ 63) 0 := ⟨by decide, by decide, .inl rfl⟩
  obtain ⟨-, rfl⟩ := hunique _ _ hzero
  exact ⟨ha, hb, hdiv.2 (.inr ⟨rfl, rfl⟩), hr⟩

end TemplateExpr.Operator
