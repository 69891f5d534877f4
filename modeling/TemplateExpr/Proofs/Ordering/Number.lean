import Mathlib.Data.EReal.Basic
import Mathlib.Tactic.FieldSimp
import Mathlib.Tactic.NormNum
import TemplateExpr.Value.Order

namespace TemplateExpr

theorem then_of_isLE {α : Type} {cmp : α → α → Ordering} [Std.TransCmp cmp] {x y z : α}
    (hxy : (cmp x y).isLE = true) (hyz : (cmp y z).isLE = true) :
    cmp x z = (cmp x y).then (cmp y z) := by
  cases h : cmp x y with
  | lt => exact Std.TransCmp.lt_of_lt_of_isLE h hyz
  | eq => exact Std.TransCmp.congr_left h
  | gt => simp [h] at hxy

namespace Binary64

noncomputable def Place.real : Place → EReal
  | .below => ⊥
  | .at n => ((n / 2 ^ 1074 : ℝ) : EReal)
  | .above => ⊤

/-- Only with the least exponent does the fraction stand alone. -/
noncomputable def magnitude (x : Float) : ℝ :=
  if exponentField x = 0 then fraction x / 2 ^ 1074
  else (1 + fraction x / 2 ^ 52) * 2 ^ ((exponentField x : ℤ) - 1023)

noncomputable def real? (x : Float) : Option EReal :=
  if exponentField x = 2047 then
    if fraction x ≠ 0 then none else some (if isNegative x then ⊥ else ⊤)
  else some ((if isNegative x then -magnitude x else magnitude x : ℝ) : EReal)

theorem steps_eq_magnitude (x : Float) : (steps x : ℝ) = magnitude x * 2 ^ 1074 := by
  unfold steps magnitude
  split
  · field_simp
  · rename_i he
    obtain ⟨e, he⟩ := Nat.exists_eq_succ_of_ne_zero he
    have hexponent : (2 : ℝ) ^ ((exponentField x : ℤ) - 1023) * 2 ^ 1074 = 2 ^ 52 * 2 ^ e := by
      rw [← zpow_natCast, ← zpow_natCast, ← zpow_natCast, ← zpow_add₀ two_ne_zero,
        ← zpow_add₀ two_ne_zero, he]
      congr 1
      push_cast
      ring
    rw [mul_assoc, hexponent, he, Nat.succ_sub_one]
    push_cast [Nat.pow_eq]
    field_simp
    norm_num

theorem stepsPerUnit_cast : (stepsPerUnit : ℝ) = 2 ^ 1074 := by
  unfold stepsPerUnit
  generalize 1074 = n
  exact Nat.cast_pow 2 n

theorem stepsPerUnit_pos : 0 < stepsPerUnit := by
  unfold stepsPerUnit
  generalize 1074 = n
  exact Nat.pow_pos two_pos

namespace Place

theorem map_real_ofFloat? (x : Float) : (ofFloat? x).map real = real? x := by
  unfold ofFloat? real?
  split
  · split
    · rfl
    · cases isNegative x <;> rfl
  · cases isNegative x <;> simp [real, steps_eq_magnitude, neg_div]

theorem real_ofInt (n : Int) : (ofInt n).real = ((n : ℝ) : EReal) := by
  rw [ofInt, real, Int.cast_mul, Int.cast_natCast, stepsPerUnit_cast,
    mul_div_cancel_right₀ _ (by positivity)]

theorem compare_eq_compare_real (p q : Place) : p.compare q = Ord.compare p.real q.real := by
  cases p <;> cases q
  case «at».«at» m n =>
    have hmono : StrictMono fun k : ℤ => (((k : ℝ) / 2 ^ 1074 : ℝ) : EReal) := by
      intro a b hab
      rw [EReal.coe_lt_coe_iff]
      gcongr
    rw [compare, ← cmp_eq_compare, ← cmp_eq_compare]
    exact (hmono.cmp_map_eq m n).symm
  all_goals
    simp [compare, real, @eq_comm _ Ordering.lt, @eq_comm _ Ordering.gt, compare_lt_iff_lt,
      compare_gt_iff_gt]

instance : Std.TransCmp compare where
  eq_swap := by
    intro p q
    rw [compare_eq_compare_real, compare_eq_compare_real]
    exact Std.OrientedOrd.eq_swap
  isLE_trans := by
    intro p q r hpq hqr
    rw [compare_eq_compare_real] at hpq hqr ⊢
    exact Std.TransOrd.isLE_trans hpq hqr

theorem compare_eq_iff {p q : Place} : p.compare q = .eq ↔ p = q := by
  cases p <;> cases q <;> simp [compare]

end Place

theorem toBits_injective : Function.Injective Float.toBits := by
  rintro ⟨⟨x, hx⟩⟩ ⟨⟨y, hy⟩⟩ h
  obtain rfl : x = y := h
  rfl

theorem steps_eq_zero_iff {x : Float} : steps x = 0 ↔ exponentField x = 0 ∧ fraction x = 0 := by
  unfold steps
  split <;> simp [*]

theorem Place.ofFloat?_eq_zero_iff {x : Float} :
    Place.ofFloat? x = some (.at 0) ↔ x = 0.0 ∨ x = -0.0 := by
  constructor
  · intro h
    have hfields : exponentField x = 0 ∧ fraction x = 0 := by
      rw [← steps_eq_zero_iff]
      unfold Place.ofFloat? at h
      split at h
      · split at h
        · cases h
        · cases hneg : isNegative x <;> simp [hneg] at h
      · cases hneg : isNegative x <;> simpa [hneg] using h
    have hlt := x.toBits.toNat_lt
    have hbits : x.toBits.toNat = 0 ∨ x.toBits.toNat = 9223372036854775808 := by
      simp only [exponentField, fraction, Nat.pow_eq] at hfields
      omega
    rcases hbits with hbits | hbits
    · have hzero : (0.0 : Float).toBits = 0 := by decide
      exact .inl (toBits_injective (hzero.symm ▸ UInt64.toNat_inj.1 hbits))
    · have hzero : (-0.0 : Float).toBits = 9223372036854775808 := by decide +kernel
      exact .inr (toBits_injective (hzero.symm ▸ UInt64.toNat_inj.1 hbits))
  · rintro (rfl | rfl) <;> rfl

end Binary64

namespace Value

noncomputable def real? : Value → Option EReal
  | .integer n => some ((n : ℝ) : EReal)
  | .float x => Binary64.real? x
  | _ => none

theorem map_real_place? (v : Value) : v.place?.map Binary64.Place.real = v.real? := by
  cases v with
  | integer n => exact congrArg some (Binary64.Place.real_ofInt n)
  | float x => exact Binary64.Place.map_real_ofFloat? x
  | boolean b | string s | list items => rfl

variable {a b : Value}

theorem compare_numbers (ha : a.isNumeric = true) (hb : b.isNumeric = true) :
    compare a b = .ok (compareNumbers a b) := by
  cases a <;> cases b <;> simp [isNumeric] at ha hb
  case integer.integer m n =>
    have hmono : StrictMono fun k : Int => k * (Binary64.stepsPerUnit : Int) := by
      intro k l hkl
      exact mul_lt_mul_of_pos_right hkl (Int.natCast_pos.2 Binary64.stepsPerUnit_pos)
    refine congrArg Except.ok ?_
    rw [← cmp_eq_compare, ← hmono.cmp_map_eq m n, cmp_eq_compare]
    rfl
  all_goals rfl

theorem equal_numbers (ha : a.isNumeric = true) (hb : b.isNumeric = true) :
    equal a b = equalNumbers a b := by
  cases a <;> cases b <;> simp [isNumeric] at ha hb
  case integer.integer m n =>
    have hsteps : (Binary64.stepsPerUnit : Int) ≠ 0 :=
      Int.natCast_ne_zero.2 Binary64.stepsPerUnit_pos.ne'
    have hplace : Binary64.Place.ofInt m = Binary64.Place.ofInt n ↔ m = n := by
      rw [Binary64.Place.ofInt, Binary64.Place.ofInt, Binary64.Place.at.injEq,
        mul_left_inj' hsteps]
    exact decide_eq_decide.2 hplace.symm
  all_goals rfl

theorem compareNumbers_eq_iff :
    compareNumbers a b = .eq ↔
      equalNumbers a b = true ∨ a.place? = none ∨ b.place? = none := by
  unfold compareNumbers equalNumbers
  cases a.place? <;> cases b.place? <;> simp [Binary64.Place.compare_eq_iff]

theorem compareNumbers_swap (a b : Value) : compareNumbers b a = (compareNumbers a b).swap := by
  unfold compareNumbers
  cases a.place? <;> cases b.place?
  case some.some p q =>
    change q.compare p = (p.compare q).swap
    exact Std.OrientedCmp.eq_swap
  all_goals rfl

theorem compareNumbers_then {a b c : Value} (ha : a.place? ≠ none) (hb : b.place? ≠ none)
    (hc : c.place? ≠ none) (hab : (compareNumbers a b).isLE = true)
    (hbc : (compareNumbers b c).isLE = true) :
    compareNumbers a c = (compareNumbers a b).then (compareNumbers b c) := by
  obtain ⟨p, hp⟩ := Option.ne_none_iff_exists'.1 ha
  obtain ⟨q, hq⟩ := Option.ne_none_iff_exists'.1 hb
  obtain ⟨r, hr⟩ := Option.ne_none_iff_exists'.1 hc
  simp only [compareNumbers, hp, hq, hr] at hab hbc ⊢
  exact then_of_isLE hab hbc

/-- Numbers are ordered as the real line is. -/
theorem compare_eq_compare_real {x y : EReal} (ha : a.real? = some x) (hb : b.real? = some y) :
    compare a b = .ok (Ord.compare x y) := by
  obtain ⟨p, hp, rfl⟩ := Option.map_eq_some_iff.1 ((map_real_place? a).trans ha)
  obtain ⟨q, hq, rfl⟩ := Option.map_eq_some_iff.1 ((map_real_place? b).trans hb)
  have hna : a.isNumeric = true := by cases a <;> simp_all [real?, isNumeric]
  have hnb : b.isNumeric = true := by cases b <;> simp_all [real?, isNumeric]
  rw [compare_numbers hna hnb, compareNumbers, hp, hq, ← Binary64.Place.compare_eq_compare_real]

end Value

end TemplateExpr
