import TemplateExpr.Operator.Apply
import TemplateExpr.Proofs.Ordering.Comparison

namespace TemplateExpr.Value

/-- The same at every level, where numbers at the same place of the number line are the same. -/
inductive Agree : Value → Value → Prop
  | numbers {a b : Value} {p : Binary64.Place} (ha : a.place? = some p) (hb : b.place? = some p) :
      Agree a b
  | booleans (x : Bool) : Agree (.boolean x) (.boolean x)
  | strings (s : String) : Agree (.string s) (.string s)
  | empty : Agree (.list []) (.list [])
  | cons {a b : Value} {as bs : List Value} (h : Agree a b) (hs : Agree (.list as) (.list bs)) :
      Agree (.list (a :: as)) (.list (b :: bs))

variable {a a' b c : Value} {p : Binary64.Place} {o : Ordering}

theorem isNumeric_of_place? (h : a.place? = some p) : a.isNumeric = true := by
  cases a with
  | integer | float => rfl
  | boolean | string | list => cases h

theorem equalNumbers_iff : equalNumbers a b = true ↔ ∃ p, a.place? = some p ∧ b.place? = some p := by
  unfold equalNumbers
  cases a.place? <;> cases b.place? <;> simp [eq_comm]

theorem agree_of_equalNumbers (h : equalNumbers a b = true) : Agree a b := by
  obtain ⟨p, ha, hb⟩ := equalNumbers_iff.1 h
  exact .numbers ha hb

mutual

theorem agree_of_equal {a b : Value} (h : equal a b = true) : Agree a b := by
  match a, b with
  | .list as, .list bs => exact agree_of_equalItems h
  | .integer _, .integer _ | .integer _, .float _ | .float _, .integer _ | .float _, .float _ =>
      rw [equal_numbers rfl rfl] at h
      exact agree_of_equalNumbers h
  | .boolean x, .boolean y =>
      obtain rfl := of_decide_eq_true h
      exact .booleans x
  | .string s, .string t =>
      obtain rfl := of_decide_eq_true h
      exact .strings s

theorem agree_of_equalItems {as bs : List Value} (h : equalItems as bs = true) :
    Agree (.list as) (.list bs) := by
  match as, bs with
  | [], [] => exact .empty
  | a :: as, b :: bs =>
      rw [equalItems, Bool.and_eq_true] at h
      exact .cons (agree_of_equal h.1) (agree_of_equalItems h.2)

end

theorem equal_eq_true_iff : equal a b = true ↔ Agree a b := by
  constructor
  · exact agree_of_equal
  · intro h
    induction h with
    | numbers ha hb =>
        rw [equal_numbers (isNumeric_of_place? ha) (isNumeric_of_place? hb)]
        exact equalNumbers_iff.2 ⟨_, ha, hb⟩
    | booleans x => exact decide_eq_true rfl
    | strings s => exact decide_eq_true rfl
    | empty => rfl
    | cons h hs ih ihs => exact equal_cons_iff.2 ⟨ih, ihs⟩

theorem Placed.agree (h : a.Placed) : Agree a a := by
  induction h with
  | integer n => exact .numbers rfl rfl
  | float h =>
      obtain ⟨p, hp⟩ := Option.ne_none_iff_exists'.1 h
      exact .numbers hp hp
  | boolean b => exact .booleans b
  | string s => exact .strings s
  | empty => exact .empty
  | cons _ _ ih ihs => exact .cons ih ihs

theorem Agree.placed (h : Agree a b) : a.Placed := by
  induction h with
  | @numbers a b p ha hb =>
      cases a with
      | integer n => exact .integer n
      | float x => exact .float (Option.ne_none_iff_exists'.2 ⟨p, ha⟩)
      | boolean | string | list => cases ha
  | booleans x => exact .boolean x
  | strings s => exact .string s
  | empty => exact .empty
  | cons _ _ ih ihs => exact .cons ih ihs

theorem Agree.symm (h : Agree a b) : Agree b a := by
  induction h with
  | numbers ha hb => exact .numbers hb ha
  | booleans x => exact .booleans x
  | strings s => exact .strings s
  | empty => exact .empty
  | cons _ _ ih ihs => exact .cons ih ihs

theorem Agree.trans (h : Agree a b) (h' : Agree b c) : Agree a c := by
  induction h generalizing c with
  | numbers ha hb =>
      cases h' with
      | numbers hb' hc =>
          obtain rfl := Option.some.inj (hb.symm.trans hb')
          exact .numbers ha hc
      | booleans | strings | empty | cons => cases hb
  | booleans | strings | empty => exact h'
  | cons _ _ ih ihs =>
      cases h' with
      | numbers hb => cases hb
      | cons h' hs' => exact .cons (ih h') (ihs hs')

theorem Compared.replace (h : Compared a b o) (ha : Agree a a') : Compared a' b o := by
  induction ha generalizing b o with
  | @numbers a a' p hp hp' =>
      have hnumeric := isNumeric_of_place? hp'
      cases h with
      | numbers _ hb =>
          have hsame : compareNumbers a b = compareNumbers a' b := by
            rw [compareNumbers, compareNumbers, hp, hp']
          rw [hsame]
          exact .numbers hnumeric hb
      | booleans | strings | empty | shorter | longer | differ | tie => cases hp
  | booleans | strings | empty => exact h
  | cons _ _ ih ihs =>
      cases h with
      | numbers hn => cases hn
      | longer => exact .longer _ _
      | differ h ho => exact .differ (ih h) ho
      | tie h hs => exact .tie (ih h) (ihs hs)

theorem Agree.compare_iff (h : Agree a a') (b : Value) (o : Ordering) :
    compare a b = .ok o ↔ compare a' b = .ok o := by
  rw [compare_eq_ok_iff, compare_eq_ok_iff]
  exact ⟨fun hc => hc.replace h, fun hc => hc.replace h.symm⟩

theorem compare_swap_iff : compare a b = .ok o ↔ compare b a = .ok o.swap := by
  rw [compare_eq_ok_iff, compare_eq_ok_iff]
  exact ⟨Compared.swap, fun h => o.swap_swap ▸ h.swap⟩

theorem Agree.compare_iff_right (h : Agree a a') (b : Value) (o : Ordering) :
    compare b a = .ok o ↔ compare b a' = .ok o := by
  rw [compare_swap_iff, h.compare_iff, ← compare_swap_iff]

theorem Agree.equal_eq (h : Agree a a') (b : Value) : equal a b = equal a' b := by
  rw [Bool.eq_iff_iff, equal_eq_true_iff, equal_eq_true_iff]
  exact ⟨h.symm.trans, h.trans⟩

theorem equal_comm (a b : Value) : equal a b = equal b a := by
  rw [Bool.eq_iff_iff, equal_eq_true_iff, equal_eq_true_iff]
  exact ⟨Agree.symm, Agree.symm⟩

theorem truthy_of_place? (h : a.place? = some p) : a.truthy = !decide (p = .at 0) := by
  have hzero : a.isZero = decide (p = .at 0) := by simp [isZero, h]
  cases a with
  | integer | float => exact congrArg Bool.not hzero
  | boolean | string | list => cases h

theorem Agree.truthy_eq (h : Agree a a') : a.truthy = a'.truthy := by
  cases h with
  | numbers ha ha' => rw [truthy_of_place? ha, truthy_of_place? ha']
  | booleans | strings | empty | cons => rfl

/-- Numbers are equal when they are the same real number. -/
theorem equal_iff_real_eq {x y : EReal} (ha : a.real? = some x) (hb : b.real? = some y) :
    equal a b = true ↔ x = y := by
  obtain ⟨p, hp, rfl⟩ := Option.map_eq_some_iff.1 ((map_real_place? a).trans ha)
  obtain ⟨q, hq, rfl⟩ := Option.map_eq_some_iff.1 ((map_real_place? b).trans hb)
  have hplace : equalNumbers a b = decide (p = q) := by simp [equalNumbers, hp, hq]
  rw [equal_numbers (isNumeric_of_place? hp) (isNumeric_of_place? hq), hplace, decide_eq_true_iff,
    ← Binary64.Place.compare_eq_iff, Binary64.Place.compare_eq_compare_real, Std.compare_eq_iff_eq]

end Value

theorem toOption_eq_of_ok_iff {ε α : Type} {r s : Except ε α} (h : ∀ a, r = .ok a ↔ s = .ok a) :
    r.toOption = s.toOption := by
  cases r with
  | ok a => rw [(h a).1 rfl]
  | error e =>
      cases s with
      | ok a => cases (h a).2 rfl
      | error e' => rfl

namespace Operator

open Value (Agree)

def tests : List Operator := [.eq, .ne, .lt, .le, .gt, .ge, .and, .or]

variable {op : Operator} {a a' : Value}

theorem ordered_eq_ok_iff {test : Ordering → Bool} {b v : Value} :
    ordered test a b = .ok v ↔ ∃ o, Value.compare a b = .ok o ∧ .boolean (test o) = v := by
  rw [ordered]
  cases Value.compare a b <;> simp [Except.map]

theorem applyBinary_of_agree (hop : op ∈ tests) (h : Agree a a') (b v : Value) :
    (op.applyBinary a b = .ok v ↔ op.applyBinary a' b = .ok v) ∧
      (op.applyBinary b a = .ok v ↔ op.applyBinary b a' = .ok v) := by
  cases op with
  | eq | ne =>
      simp only [applyBinary]
      rw [h.equal_eq b, Value.equal_comm b a, h.equal_eq b, Value.equal_comm b a']
      exact ⟨Iff.rfl, Iff.rfl⟩
  | lt | le | gt | ge =>
      simp only [applyBinary, ordered_eq_ok_iff, h.compare_iff b, h.compare_iff_right b, and_self]
  | and | or =>
      simp only [applyBinary]
      rw [h.truthy_eq]
      exact ⟨Iff.rfl, Iff.rfl⟩
  | _ => simp [tests] at hop

end Operator

namespace Value

/-- Equality is an equivalence on the values without floats that are not numbers; numbers are equal when
they are the same real number. A value can be replaced by one that equals it wherever it is compared,
tested for equality or counted as true or false, faults apart. -/
theorem equal_congruence :
    (∀ a, equal a a = true ↔ a.Placed) ∧
    (∀ a b, equal a b = equal b a) ∧
    (∀ a b c, equal a b = true → equal b c = true → equal a c = true) ∧
    (∀ a b x y, a.real? = some x → b.real? = some y → (equal a b = true ↔ x = y)) ∧
    ∀ a a', equal a a' = true →
      (∀ b, (compare a b).toOption = (compare a' b).toOption ∧
        (compare b a).toOption = (compare b a').toOption) ∧
      (∀ b, equal a b = equal a' b ∧ equal b a = equal b a') ∧
      a.truthy = a'.truthy ∧
      Operator.not.applyUnary a = Operator.not.applyUnary a' ∧
      ∀ op ∈ Operator.tests, ∀ b, (op.applyBinary a b).toOption = (op.applyBinary a' b).toOption ∧
        (op.applyBinary b a).toOption = (op.applyBinary b a').toOption := by
  refine ⟨fun a => ?_, equal_comm, fun a b c hab hbc => ?_, fun a b x y => equal_iff_real_eq,
    fun a a' h => ?_⟩
  · rw [equal_eq_true_iff]
    exact ⟨Agree.placed, Placed.agree⟩
  · rw [equal_eq_true_iff] at hab hbc ⊢
    exact hab.trans hbc
  · have hagree := equal_eq_true_iff.1 h
    refine ⟨fun b => ⟨?_, ?_⟩, fun b => ⟨hagree.equal_eq b, ?_⟩, hagree.truthy_eq, ?_,
      fun op hop b => ⟨?_, ?_⟩⟩
    · exact toOption_eq_of_ok_iff (hagree.compare_iff b)
    · exact toOption_eq_of_ok_iff (hagree.compare_iff_right b)
    · rw [equal_comm b a, equal_comm b a', hagree.equal_eq]
    · rw [Operator.applyUnary, Operator.applyUnary, hagree.truthy_eq]
    · exact toOption_eq_of_ok_iff fun v => (Operator.applyBinary_of_agree hop hagree b v).1
    · exact toOption_eq_of_ok_iff fun v => (Operator.applyBinary_of_agree hop hagree b v).2

theorem equal_congruence_large :
    let a : Value := .list [.integer 9007199254740992, .boolean true]
    let a' : Value := .list [.float 9007199254740992.0, .boolean true]
    let b : Value := .list [.integer 9007199254740993, .boolean true]
    equal a a' = true ∧ compare a b = .ok .lt ∧ (compare a' b).toOption = some .lt ∧
      equal a' b = false := by
  intro a a' b
  have ha : equal a a' = true := by decide +kernel
  have hab : compare a b = .ok .lt := by decide +kernel
  have hb : equal a b = false := by decide +kernel
  obtain ⟨hcompare, hequal, -⟩ := equal_congruence.2.2.2.2 a a' ha
  refine ⟨ha, hab, ?_, ?_⟩
  · rw [← (hcompare b).1, hab]
    rfl
  · rw [← (hequal b).1, hb]

end Value

end TemplateExpr
