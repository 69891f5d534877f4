import TemplateExpr.Proofs.Ordering.Comparison

namespace TemplateExpr.Value

inductive Comparable : Value → Value → Prop
  | numbers {a b : Value} (ha : a.isNumeric = true) (hb : b.isNumeric = true) : Comparable a b
  | strings (s t : String) : Comparable (.string s) (.string t)
  | booleans (x y : Bool) : Comparable (.boolean x) (.boolean y)
  | lists {as bs : List Value}
      (h : ∀ before a b behind, as.zip bs = before ++ (a, b) :: behind →
        (∀ pair ∈ before, compare pair.1 pair.2 = .ok .eq) → Comparable a b) :
      Comparable (.list as) (.list bs)

variable {a b : Value} {as bs : List Value} {o : Ordering}

theorem comparable_of_zip (h : as.zip bs = []) : Comparable (.list as) (.list bs) := by
  apply Comparable.lists
  intro before a b behind hzip
  simp [h] at hzip

theorem Comparable.cons (h : Comparable a b)
    (hs : compare a b = .ok .eq → Comparable (.list as) (.list bs)) :
    Comparable (.list (a :: as)) (.list (b :: bs)) := by
  apply Comparable.lists
  intro before a' b' behind hzip hties
  cases before with
  | nil =>
      cases hzip
      exact h
  | cons pair before =>
      obtain ⟨rfl, htail⟩ := List.cons.inj hzip
      obtain ⟨htie, hties⟩ := List.forall_mem_cons.1 hties
      cases hs htie with
      | numbers ha => cases ha
      | lists hs => exact hs before a' b' behind htail hties

theorem Compared.comparable (h : Compared a b o) : Comparable a b := by
  induction h with
  | numbers ha hb => exact .numbers ha hb
  | booleans x y => exact .booleans x y
  | strings s t => exact .strings s t
  | empty => exact comparable_of_zip rfl
  | shorter b bs => exact comparable_of_zip rfl
  | longer a as => exact comparable_of_zip rfl
  | differ h ho ih =>
      apply ih.cons
      intro htie
      cases htie.symm.trans (compare_eq_ok_iff.2 h)
      exact absurd rfl ho
  | tie h hs ih ihs => exact ih.cons fun _ => ihs

/-- The comparison goes on as long as the pairs tie, and each pair that it comes to has an order. -/
theorem compareItems_succeeds
    (h : ∀ before a b behind, as.zip bs = before ++ (a, b) :: behind →
      (∀ pair ∈ before, compare pair.1 pair.2 = .ok .eq) → ∃ o, compare a b = .ok o) :
    ∃ o, compareItems as bs = .ok o := by
  induction as generalizing bs with
  | nil => cases bs <;> exact ⟨_, rfl⟩
  | cons a as ih =>
      cases bs with
      | nil => exact ⟨_, rfl⟩
      | cons b bs =>
          obtain ⟨o, ho⟩ := h [] a b (as.zip bs) rfl (by simp)
          cases o with
          | lt | gt =>
              rw [compareItems, ho]
              exact ⟨_, rfl⟩
          | eq =>
              have htail : ∃ o, compareItems as bs = .ok o := by
                apply ih
                intro before a' b' behind hzip hties
                apply h ((a, b) :: before) a' b' behind
                · rw [List.zip_cons_cons, hzip, List.cons_append]
                · exact List.forall_mem_cons.2 ⟨ho, hties⟩
              rwa [compareItems, ho]

theorem Comparable.succeeds (h : Comparable a b) : ∃ o, compare a b = .ok o := by
  induction h with
  | numbers ha hb => exact ⟨_, compare_numbers ha hb⟩
  | strings s t => exact ⟨_, rfl⟩
  | booleans x y => exact ⟨_, rfl⟩
  | lists _ ih => exact compareItems_succeeds ih

theorem exists_compare_iff : (∃ o, compare a b = .ok o) ↔ Comparable a b :=
  ⟨fun ⟨_, ho⟩ => (compare_eq_ok_iff.1 ho).comparable, Comparable.succeeds⟩

end TemplateExpr.Value
