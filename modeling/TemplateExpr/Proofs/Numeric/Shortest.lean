import Mathlib.Algebra.Order.Field.Rat
import Mathlib.Algebra.Order.Field.Power
import Mathlib.Tactic.FieldSimp
import Mathlib.Tactic.Linarith
import Mathlib.Tactic.NormNum
import TemplateExpr.Proofs.Ordering.Number
import TemplateExpr.Numeric.Shortest

namespace TemplateExpr.Shortest

theorem ten_zpow_le_two_zpow {i k : ℤ} (hpos : 10 * i ≤ 3 * k) (hneg : 93 * i ≤ 28 * k) :
    (10 : ℚ) ^ i ≤ 2 ^ k := by
  rcases Int.le_total 0 i with hi | hi
  · obtain ⟨n, rfl⟩ := Int.eq_ofNat_of_zero_le hi
    refine le_of_pow_le_pow_left₀ (n := 3) (by decide) (by positivity) ?_
    calc ((10 : ℚ) ^ (n : ℤ)) ^ 3 = (10 ^ 3) ^ n := by rw [zpow_natCast, ← pow_mul, ← pow_mul, mul_comm]
      _ ≤ (2 ^ 10) ^ n := by gcongr; norm_num
      _ = 2 ^ (10 * (n : ℤ)) := by rw [← pow_mul, ← zpow_natCast]; push_cast; rfl
      _ ≤ 2 ^ (k * (3 : ℕ)) := zpow_le_zpow_right₀ (by norm_num) (by omega)
      _ = (2 ^ k) ^ 3 := by rw [zpow_mul, zpow_natCast]
  · obtain ⟨n, rfl⟩ := Int.exists_eq_neg_ofNat hi
    refine le_of_pow_le_pow_left₀ (n := 28) (by decide) (by positivity) ?_
    calc ((10 : ℚ) ^ (-(n : ℤ))) ^ 28 = ((10 ^ 28) ^ n)⁻¹ := by
          rw [zpow_neg, zpow_natCast, inv_pow, ← pow_mul, ← pow_mul, mul_comm]
      _ ≤ ((2 ^ 93) ^ n)⁻¹ := by gcongr; norm_num
      _ = 2 ^ (-(93 * (n : ℤ))) := by rw [← pow_mul, zpow_neg, ← zpow_natCast]; push_cast; rfl
      _ ≤ 2 ^ (k * (28 : ℕ)) := zpow_le_zpow_right₀ (by norm_num) (by omega)
      _ = (2 ^ k) ^ 28 := by rw [zpow_mul, zpow_natCast]

theorem zpow_mul_toNat {a : ℚ} (ha : a ≠ 0) (k : ℤ) : a ^ k * a ^ (-k).toNat = a ^ k.toNat := by
  rw [← zpow_natCast, ← zpow_natCast, ← zpow_add₀ ha]
  congr 1
  omega

def Decimal.value (d : Decimal) : ℚ := d.digits * 10 ^ d.exponent

namespace Binary

/-- A positive number of the format. -/
structure Proper (b : Binary) : Prop where
  pos : 0 < b.mantissa
  lt : b.mantissa < 2 ^ 53
  least : -1074 ≤ b.exponent
  greatest : b.exponent ≤ 971
  full : b.exponent ≠ -1074 → 2 ^ 52 ≤ b.mantissa
  narrow_iff : b.narrow = true ↔ b.mantissa = 2 ^ 52 ∧ b.exponent ≠ -1074

def unit (b : Binary) : ℚ := 2 ^ (b.exponent - 2)

/-- What is rounded to a number; the ends of the interval are only if the mantissa is even. -/
structure Rounds (b : Binary) (x : ℚ) : Prop where
  low_le : b.low * b.unit ≤ x
  le_high : x ≤ b.high * b.unit
  inside : b.mantissa % 2 = 1 → b.low * b.unit < x ∧ x < b.high * b.unit

variable {b c : Binary} {i : ℤ} {k n fuel : ℕ} {x : ℚ}

theorem unit_pos (b : Binary) : 0 < b.unit := by
  unfold unit
  positivity

def scale (b : Binary) (i : ℤ) : ℚ := 2 ^ (2 - b.exponent).toNat * 10 ^ (-i).toNat

theorem scale_pos (b : Binary) (i : ℤ) : 0 < b.scale i := by
  unfold scale
  positivity

theorem quarter_eq (b : Binary) (i : ℤ) : (b.quarter i : ℚ) = b.unit * b.scale i := by
  have htwo := zpow_mul_toNat (a := 2) (by norm_num) (b.exponent - 2)
  rw [neg_sub] at htwo
  simp only [quarter, unit, scale, Nat.pow_eq]
  rw [← mul_assoc, htwo]
  push_cast
  rfl

theorem spacing_eq (b : Binary) (i : ℤ) : (b.spacing i : ℚ) = 10 ^ i * b.scale i := by
  have hten := zpow_mul_toNat (a := 10) (by norm_num) i
  simp only [spacing, scale, Nat.pow_eq]
  rw [mul_left_comm, hten]
  push_cast
  rfl

theorem end_le_point_iff :
    (k : ℚ) * b.unit ≤ n * 10 ^ i ↔ k * b.quarter i ≤ n * b.spacing i := by
  rw [← mul_le_mul_iff_left₀ (b.scale_pos i), mul_assoc, mul_assoc, ← quarter_eq, ← spacing_eq,
    ← Nat.cast_mul, ← Nat.cast_mul, Nat.cast_le]

theorem point_le_end_iff :
    (n : ℚ) * 10 ^ i ≤ k * b.unit ↔ n * b.spacing i ≤ k * b.quarter i := by
  rw [← mul_le_mul_iff_left₀ (b.scale_pos i), mul_assoc, mul_assoc, ← quarter_eq, ← spacing_eq,
    ← Nat.cast_mul, ← Nat.cast_mul, Nat.cast_le]

theorem admits_iff : b.admits i n = true ↔ b.Rounds (n * 10 ^ i) := by
  have hrounds : b.Rounds (n * 10 ^ i) ↔ b.low * b.quarter i ≤ n * b.spacing i ∧
      n * b.spacing i ≤ b.high * b.quarter i ∧ (b.mantissa % 2 = 1 →
        b.low * b.quarter i < n * b.spacing i ∧ n * b.spacing i < b.high * b.quarter i) := by
    rw [← end_le_point_iff, ← point_le_end_iff, ← not_le, ← point_le_end_iff, ← not_le,
      ← end_le_point_iff, not_le, not_le]
    exact ⟨fun h => ⟨h.low_le, h.le_high, h.inside⟩, fun ⟨hlow, hhigh, hin⟩ => ⟨hlow, hhigh, hin⟩⟩
  rw [hrounds, admits]
  split
  · simp [*]
  · simp only [Bool.and_eq_true, decide_eq_true_eq]
    omega

theorem nearer_cases (b : Binary) (i : ℤ) (n : ℕ) : b.nearer i n = n ∨ b.nearer i n = n + 1 := by
  unfold nearer
  split
  · exact .inl rfl
  · exact .inr rfl
  · exact ite_eq_or_eq _ _ _

theorem candidate?_rounds (h : b.candidate? i = some n) : b.Rounds (n * 10 ^ i) := by
  rw [← admits_iff]
  simp only [candidate?] at h
  split at h
  · rename_i hbelow habove
    obtain rfl := Option.some.inj h
    rcases b.nearer_cases i (b.below i) with hn | hn <;> rwa [hn]
  · rename_i hbelow _
    rwa [← Option.some.inj h]
  · rename_i _ habove
    rwa [← Option.some.inj h]
  · cases h

/-- On a grid no coarser than a quarter of the last place the point above the number is near enough. -/
theorem candidate?_ne_none (h : b.spacing i ≤ b.quarter i) :
    b.candidate? i ≠ none := by
  have hspacing : 0 < b.spacing i := by
    simp only [spacing, Nat.pow_eq]
    positivity
  have hbelow : b.below i * b.spacing i ≤ 4 * b.mantissa * b.quarter i := Nat.div_mul_le_self _ _
  have habove : 4 * b.mantissa * b.quarter i < (b.below i + 1) * b.spacing i :=
     (Nat.div_lt_iff_lt_mul hspacing).1 (Nat.lt_succ_self (b.below i))
  have hlow : b.low * b.quarter i ≤ 4 * b.mantissa * b.quarter i :=
    Nat.mul_le_mul_right _ (Nat.sub_le _ _)
  have hhigh : b.high * b.quarter i = 4 * b.mantissa * b.quarter i + 2 * b.quarter i := by
    rw [high, Nat.add_mul]
  have hpoint : (b.below i + 1) * b.spacing i = b.below i * b.spacing i + b.spacing i :=
    Nat.succ_mul _ _
  have hadmits : b.admits i (b.below i + 1) = true := by
    rw [admits, hhigh]
    split <;> simp only [Bool.and_eq_true, decide_eq_true_eq] <;> omega
  simp only [candidate?, hadmits]
  cases b.admits i (b.below i) <;> simp

theorem search_rounds (h : ∃ k < fuel, b.candidate? (i - k) ≠ none) :
    b.Rounds (b.search fuel i).value := by
  induction fuel generalizing i with
  | zero =>
      obtain ⟨k, hk, -⟩ := h
      cases hk
  | succ fuel ih =>
      rw [search]
      cases hc : b.candidate? i with
      | some n => exact candidate?_rounds hc
      | none =>
          obtain ⟨k, hk, hfound⟩ := h
          cases k with
          | zero => exact absurd (by simpa using hc) hfound
          | succ k =>
              refine ih ⟨k, Nat.lt_of_succ_lt_succ hk, ?_⟩
              rwa [sub_sub, add_comm 1, ← Nat.cast_succ]

theorem Proper.spacing_le (hb : b.Proper) :
    b.spacing (b.magnitude - 19) ≤ b.quarter (b.magnitude - 19) := by
  have hlog : b.mantissa.log2 < 53 := (Nat.log2_lt hb.pos.ne').2 hb.lt
  have hleast := hb.least
  have hgreatest := hb.greatest
  have hten : (10 : ℚ) ^ (b.magnitude - 19) ≤ b.unit := by
    apply ten_zpow_le_two_zpow <;> unfold magnitude <;> omega
  rw [← Nat.cast_le (α := ℚ), spacing_eq, quarter_eq]
  exact mul_le_mul_of_nonneg_right hten (b.scale_pos _).le

theorem Proper.shortest_rounds (hb : b.Proper) : b.Rounds b.shortest.value :=
  search_rounds ⟨19, by decide, candidate?_ne_none hb.spacing_le⟩

theorem Proper.shortest_pos (hb : b.Proper) : 0 < b.shortest.value := by
  have hlow : 0 < b.low := by
    have := hb.pos
    unfold low
    split <;> omega
  have hend : 0 < b.low * b.unit := mul_pos (Nat.cast_pos.2 hlow) b.unit_pos
  exact hend.trans_le hb.shortest_rounds.low_le

theorem Proper.low_ge (hc : c.Proper) (h : c.exponent ≠ -1074) : 2 ^ 54 - 1 ≤ c.low := by
  have hfull := hc.full h
  have hnarrow := hc.narrow_iff
  unfold low
  cases hn : c.narrow
  · simp_all
    omega
  · simp_all

/-- The interval of a number ends before that of a greater one begins, or at an end that one of the two
does not own. -/
theorem high_le_low (hb : b.Proper) (hc : c.Proper)
    (hlt : b.exponent < c.exponent ∨ b.exponent = c.exponent ∧ b.mantissa < c.mantissa) :
    b.high * b.unit ≤ c.low * c.unit ∧
      (b.high * b.unit = c.low * c.unit → b.mantissa % 2 = 1 ∨ c.mantissa % 2 = 1) := by
  have hbpos := b.unit_pos
  rcases hlt with hlt | ⟨heq, hlt⟩
  · have hlow := hc.low_ge (by have := hb.least; omega)
    have hhigh : b.high = 4 * b.mantissa + 2 := rfl
    have hbound := hb.lt
    have hunit : 2 * b.unit ≤ c.unit := by
      rw [unit, ← zpow_one_add₀ two_ne_zero]
      exact zpow_le_zpow_right₀ (by norm_num) (by omega)
    have hle : b.high * b.unit ≤ 2 * c.low * b.unit := by
      gcongr
      exact_mod_cast (by omega : b.high ≤ 2 * c.low)
    have hstep : 2 * c.low * b.unit ≤ c.low * c.unit := by
      calc 2 * c.low * b.unit = c.low * (2 * b.unit) := by rw [mul_comm (2 : ℚ), mul_assoc]
        _ ≤ c.low * c.unit := by gcongr
    refine ⟨hle.trans hstep, fun he => .inl ?_⟩
    have hge : 2 * c.low ≤ b.high := by
      have := le_of_mul_le_mul_right (hstep.trans he.ge) hbpos
      exact_mod_cast this
    omega
  · have hunit : c.unit = b.unit := by rw [unit, unit, heq]
    have hlow : c.low = 4 * c.mantissa - 1 ∨ c.low = 4 * c.mantissa - 2 := by
      unfold low
      cases c.narrow <;> simp
    have hhigh : b.high = 4 * b.mantissa + 2 := rfl
    rw [hunit]
    refine ⟨?_, fun he => ?_⟩
    · gcongr
      omega
    · have hends : b.high = c.low := by
        have := mul_right_cancel₀ hbpos.ne' he
        exact_mod_cast this
      omega

theorem not_rounds_of_lt (hb : b.Proper) (hc : c.Proper)
    (hlt : b.exponent < c.exponent ∨ b.exponent = c.exponent ∧ b.mantissa < c.mantissa)
    (hx : b.Rounds x) : ¬ c.Rounds x := by
  intro hy
  obtain ⟨hle, hodd⟩ := high_le_low hb hc hlt
  have hends := le_antisymm hle (hy.low_le.trans hx.le_high)
  rcases hodd hends with hodd | hodd
  · exact absurd (hx.inside hodd).2 (not_lt.2 (hends.le.trans hy.low_le))
  · exact absurd (hy.inside hodd).1 (not_lt.2 (hx.le_high.trans hle))

theorem Rounds.unique (hb : b.Proper) (hc : c.Proper) (hx : b.Rounds x) (hy : c.Rounds x) : b = c := by
  have hexponent : b.exponent = c.exponent := by
    by_contra hne
    rcases Int.lt_or_gt_of_ne hne with hlt | hlt
    · exact not_rounds_of_lt hb hc (.inl hlt) hx hy
    · exact not_rounds_of_lt hc hb (.inl hlt) hy hx
  have hmantissa : b.mantissa = c.mantissa := by
    by_contra hne
    rcases Nat.lt_or_gt_of_ne hne with hlt | hlt
    · exact not_rounds_of_lt hb hc (.inr ⟨hexponent, hlt⟩) hx hy
    · exact not_rounds_of_lt hc hb (.inr ⟨hexponent.symm, hlt⟩) hy hx
  have hnarrow : b.narrow = c.narrow := by
    rw [Bool.eq_iff_iff, hb.narrow_iff, hc.narrow_iff, hexponent, hmantissa]
  cases b
  cases c
  simp_all

section

open Binary64 (exponentField fraction steps)

variable {f g : Float}

theorem ofFloat_cases (f : Float) :
    (exponentField f = 0 ∧ ofFloat f = ⟨fraction f, -1074, false⟩) ∨
      (0 < exponentField f ∧ ofFloat f = ⟨2 ^ 52 + fraction f, exponentField f - 1075,
        fraction f = 0 && decide (1 < exponentField f)⟩) := by
  by_cases h : exponentField f = 0
  · exact .inl ⟨h, if_pos h⟩
  · exact .inr ⟨Nat.pos_of_ne_zero h, if_neg h⟩

theorem fraction_lt (f : Float) : fraction f < 2 ^ 52 := Nat.mod_lt _ (by decide)

theorem ofFloat_proper (he : exponentField f ≠ 2047) (hz : steps f ≠ 0) : (ofFloat f).Proper := by
  have hfraction := fraction_lt f
  have hexponent : exponentField f < 2 ^ 11 := Nat.mod_lt _ (by decide)
  rw [Ne, Binary64.steps_eq_zero_iff] at hz
  rcases ofFloat_cases f with ⟨h, hf⟩ | ⟨h, hf⟩
  · rw [hf]
    constructor <;> simp <;> omega
  · rw [hf]
    constructor <;> simp <;> omega

theorem fields_eq_of_ofFloat (h : ofFloat f = ofFloat g) :
    exponentField f = exponentField g ∧ fraction f = fraction g := by
  have hf := fraction_lt f
  have hg := fraction_lt g
  rcases ofFloat_cases f with ⟨_, hf'⟩ | ⟨_, hf'⟩ <;>
    rcases ofFloat_cases g with ⟨_, hg'⟩ | ⟨_, hg'⟩ <;>
    (rw [hf', hg', Binary.mk.injEq] at h; omega)

end

end Binary

end TemplateExpr.Shortest
