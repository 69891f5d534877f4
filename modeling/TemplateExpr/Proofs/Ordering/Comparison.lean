import TemplateExpr.Proofs.Ordering.Number

namespace TemplateExpr.Value

inductive Compared : Value → Value → Ordering → Prop
  | numbers {a b : Value} (ha : a.isNumeric = true) (hb : b.isNumeric = true) :
      Compared a b (compareNumbers a b)
  | booleans (x y : Bool) : Compared (.boolean x) (.boolean y) (Ord.compare x y)
  | strings (s t : String) : Compared (.string s) (.string t) (Ord.compare s t)
  | empty : Compared (.list []) (.list []) .eq
  | shorter (b : Value) (bs : List Value) : Compared (.list []) (.list (b :: bs)) .lt
  | longer (a : Value) (as : List Value) : Compared (.list (a :: as)) (.list []) .gt
  | differ {a b : Value} {as bs : List Value} {o : Ordering} (h : Compared a b o) (ho : o ≠ .eq) :
      Compared (.list (a :: as)) (.list (b :: bs)) o
  | tie {a b : Value} {as bs : List Value} {o : Ordering} (h : Compared a b .eq)
      (hs : Compared (.list as) (.list bs) o) : Compared (.list (a :: as)) (.list (b :: bs)) o

/-- Each number in a value lies somewhere on the number line. -/
inductive Placed : Value → Prop
  | integer (n : Int) : Placed (.integer n)
  | float {x : Float} (h : Binary64.Place.ofFloat? x ≠ none) : Placed (.float x)
  | boolean (b : Bool) : Placed (.boolean b)
  | string (s : String) : Placed (.string s)
  | empty : Placed (.list [])
  | cons {v : Value} {vs : List Value} (h : Placed v) (hs : Placed (.list vs)) :
      Placed (.list (v :: vs))

/-- Nothing tells the values apart but floats that are not numbers, and there are some of those. -/
inductive Blurred : Value → Value → Prop
  | number {a b : Value} (ha : a.isNumeric = true) (hb : b.isNumeric = true)
      (h : a.place? = none ∨ b.place? = none) : Blurred a b
  | head {a b : Value} {as bs : List Value} (h : Blurred a b)
      (hs : equal (.list as) (.list bs) = true) : Blurred (.list (a :: as)) (.list (b :: bs))
  | tail {a b : Value} {as bs : List Value} (h : equal a b = true)
      (hs : Blurred (.list as) (.list bs)) : Blurred (.list (a :: as)) (.list (b :: bs))
  | both {a b : Value} {as bs : List Value} (h : Blurred a b)
      (hs : Blurred (.list as) (.list bs)) : Blurred (.list (a :: as)) (.list (b :: bs))

variable {a b c : Value} {as bs : List Value} {o o' : Ordering}

mutual

theorem compared_of_compare {a b : Value} {o : Ordering} (h : compare a b = .ok o) :
    Compared a b o := by
  match a, b with
  | .list as, .list bs => exact compared_of_compareItems h
  | .integer _, .integer _ | .integer _, .float _ | .float _, .integer _ | .float _, .float _ =>
      rw [compare_numbers rfl rfl] at h
      cases h
      exact .numbers rfl rfl
  | .boolean x, .boolean y =>
      cases h
      exact .booleans x y
  | .string s, .string t =>
      cases h
      exact .strings s t

theorem compared_of_compareItems {as bs : List Value} {o : Ordering}
    (h : compareItems as bs = .ok o) : Compared (.list as) (.list bs) o := by
  match as, bs with
  | [], [] =>
      cases h
      exact .empty
  | [], b :: bs =>
      cases h
      exact .shorter b bs
  | a :: as, [] =>
      cases h
      exact .longer a as
  | a :: as, b :: bs =>
      rw [compareItems] at h
      cases hab : compare a b with
      | error fault => simp [hab] at h
      | ok o' =>
          rw [hab] at h
          cases o' with
          | eq => exact .tie (compared_of_compare hab) (compared_of_compareItems h)
          | lt | gt =>
              cases h
              exact .differ (compared_of_compare hab) nofun

end

theorem compare_eq_ok_iff : compare a b = .ok o ↔ Compared a b o := by
  constructor
  · exact compared_of_compare
  · intro h
    induction h with
    | numbers ha hb => exact compare_numbers ha hb
    | booleans x y | strings s t | empty | shorter b bs | longer a as => rfl
    | @differ a b as bs o h ho ih =>
        rw [compare, compareItems, ih]
        cases o with
        | eq => exact absurd rfl ho
        | lt | gt => rfl
    | tie h hs ih ihs =>
        rw [compare, compareItems, ih]
        rwa [compare] at ihs

theorem Compared.swap (h : Compared a b o) : Compared b a o.swap := by
  induction h with
  | numbers ha hb =>
      rw [← compareNumbers_swap]
      exact .numbers hb ha
  | booleans x y =>
      rw [← Std.OrientedOrd.eq_swap]
      exact .booleans y x
  | strings s t =>
      rw [← Std.OrientedOrd.eq_swap]
      exact .strings t s
  | empty => exact .empty
  | shorter b bs => exact .longer b bs
  | longer a as => exact .shorter a as
  | differ h ho ih => exact .differ ih (by simpa using ho)
  | tie h hs ih ihs => exact .tie ih ihs

theorem Placed.place?_ne_none (h : a.Placed) (ha : a.isNumeric = true) : a.place? ≠ none := by
  cases h with
  | integer n => simp [place?]
  | float h => exact h
  | _ => cases ha

theorem eq_lt_of_isLE (h : o.isLE = true) (hne : o ≠ .eq) : o = .lt := by
  cases o <;> simp_all

theorem Compared.then (h : Compared a b o) (h' : Compared b c o') (ha : a.Placed) (hb : b.Placed)
    (hc : c.Placed) (ho : o.isLE = true) (ho' : o'.isLE = true) : Compared a c (o.then o') := by
  induction h generalizing c o' with
  | numbers hna hnb =>
      cases h' with
      | numbers _ hnc =>
          rw [← compareNumbers_then (ha.place?_ne_none hna) (hb.place?_ne_none hnb)
            (hc.place?_ne_none hnc) ho ho']
          exact .numbers hna hnc
      | _ => cases hnb
  | booleans x y =>
      cases h' with
      | numbers hn _ => cases hn
      | booleans _ z =>
          rw [← then_of_isLE ho ho']
          exact .booleans x z
  | strings s t =>
      cases h' with
      | numbers hn _ => cases hn
      | strings _ u =>
          rw [← then_of_isLE ho ho']
          exact .strings s u
  | empty => exact h'
  | shorter b bs =>
      cases h' with
      | numbers hn _ => cases hn
      | longer => cases ho'
      | differ | tie => exact .shorter _ _
  | longer a as => cases ho
  | @differ a b as bs o h hne ih =>
      obtain rfl : o = .lt := eq_lt_of_isLE ho hne
      cases ha with | cons ha _ => ?_
      cases hb with | cons hb _ => ?_
      cases h' with
      | numbers hn _ => cases hn
      | longer => cases ho'
      | differ h' _ =>
          cases hc with | cons hc _ => ?_
          have hac : Compared a _ .lt := ih h' ha hb hc ho ho'
          exact hac.differ nofun
      | tie h' _ =>
          cases hc with | cons hc _ => ?_
          have hac : Compared a _ .lt := ih h' ha hb hc ho rfl
          exact hac.differ nofun
  | @tie a b as bs o h hs ih ihs =>
      cases ha with | cons ha has => ?_
      cases hb with | cons hb hbs => ?_
      cases h' with
      | numbers hn _ => cases hn
      | longer => cases ho'
      | differ h' hne' =>
          obtain rfl : o' = .lt := eq_lt_of_isLE ho' hne'
          cases hc with | cons hc _ => ?_
          have hac : Compared a _ .lt := ih h' ha hb hc rfl ho'
          -- whatever the first lists differ by behind the heads, the heads come first now
          have hlt : o.then .lt = .lt := by cases o <;> trivial
          rw [hlt]
          exact hac.differ nofun
      | tie h' hs' =>
          cases hc with | cons hc hcs => ?_
          exact .tie (ih h' ha hb hc rfl rfl) (ihs hs' has hbs hcs ho ho')

theorem equal_cons_iff : equal (.list (a :: as)) (.list (b :: bs)) = true ↔
    equal a b = true ∧ equal (.list as) (.list bs) = true := by
  simp [equal, equalItems]

theorem blurred_cons_iff : Blurred (.list (a :: as)) (.list (b :: bs)) ↔
    (Blurred a b ∧ equal (.list as) (.list bs) = true) ∨
      (equal a b = true ∧ Blurred (.list as) (.list bs)) ∨
      (Blurred a b ∧ Blurred (.list as) (.list bs)) := by
  constructor
  · intro h
    cases h with
    | number ha => cases ha
    | head h hs => exact .inl ⟨h, hs⟩
    | tail h hs => exact .inr (.inl ⟨h, hs⟩)
    | both h hs => exact .inr (.inr ⟨h, hs⟩)
  · rintro (⟨h, hs⟩ | ⟨h, hs⟩ | ⟨h, hs⟩)
    · exact .head h hs
    · exact .tail h hs
    · exact .both h hs

theorem Blurred.equal_eq_false (h : Blurred a b) : equal a b = false := by
  induction h with
  | number ha hb h =>
      rw [equal_numbers ha hb, equalNumbers]
      rcases h with h | h
      · rw [h]
      · rw [h]
        split <;> first | rfl | contradiction
  | head _ _ ih | tail _ _ ih | both _ _ ih _ => simp_all [equal, equalItems]

/-- Values tie when they are equal, or would be if it were not for floats that are not numbers. -/
theorem Compared.eq_iff (h : Compared a b o) : o = .eq ↔ equal a b = true ∨ Blurred a b := by
  induction h with
  | numbers ha hb =>
      rw [compareNumbers_eq_iff, equal_numbers ha hb]
      refine or_congr_right ⟨.number ha hb, fun h => ?_⟩
      cases h with
      | number _ _ h => exact h
      | head | tail | both => cases ha
  | booleans x y =>
      rw [Std.compare_eq_iff_eq, or_iff_left (by rintro ⟨⟨⟩⟩)]
      simp [equal]
  | strings s t =>
      rw [Std.compare_eq_iff_eq, or_iff_left (by rintro ⟨⟨⟩⟩)]
      simp [equal]
  | empty => simp [equal, equalItems]
  | shorter b bs =>
      rw [or_iff_left (by rintro ⟨⟨⟩⟩)]
      simp [equal, equalItems]
  | longer a as =>
      rw [or_iff_left (by rintro ⟨⟨⟩⟩)]
      simp [equal, equalItems]
  | differ h ho ih =>
      obtain ⟨hequal, hblurred⟩ := not_or.1 (mt ih.2 ho)
      simp [equal_cons_iff, blurred_cons_iff, ho, hequal, hblurred]
  | tie h hs ih ihs =>
      rw [equal_cons_iff, blurred_cons_iff, ihs]
      rcases ih.1 rfl with hequal | hblurred
      · simp [hequal, mt Blurred.equal_eq_false]
      · simp [hblurred, hblurred.equal_eq_false]

theorem Placed.not_blurred (h : a.Placed) (h' : b.Placed) : ¬ Blurred a b := by
  intro hblurred
  induction hblurred with
  | number ha hb hn =>
      rcases hn with hn | hn
      · exact h.place?_ne_none ha hn
      · exact h'.place?_ne_none hb hn
  | head _ _ ih | both _ _ ih _ =>
      cases h with | cons h _ => ?_
      cases h' with | cons h' _ => ?_
      exact ih h h'
  | tail _ _ ih =>
      cases h with | cons _ hs => ?_
      cases h' with | cons _ hs' => ?_
      exact ih hs hs'

end TemplateExpr.Value
