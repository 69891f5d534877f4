import TemplateExpr.Proofs.Ordering.Comparison

namespace TemplateExpr.Value

/-- Of values without floats that are not numbers, a comparison turned round gives the opposite,
comparisons that do not go down can be chained, and what ties is equal. Numbers are compared by the
real numbers they are. -/
theorem compare_orders {a b c : Value} (ha : a.Placed) (hb : b.Placed) (hc : c.Placed) :
    ((∃ fault, compare a b = .error fault) ↔ ∃ fault, compare b a = .error fault) ∧
    (∀ o, compare a b = .ok o ↔ compare b a = .ok o.swap) ∧
    (∀ o o', compare a b = .ok o → compare b c = .ok o' → o.isLE = true → o'.isLE = true →
      ∃ o'', compare a c = .ok o'' ∧ o''.isLE = true ∧ (o'' = .lt ↔ o = .lt ∨ o' = .lt)) ∧
    (∀ o, compare a b = .ok o → (o = .eq ↔ equal a b = true)) ∧
    (∀ x y, a.real? = some x → b.real? = some y → compare a b = .ok (Ord.compare x y)) := by
  have hswap (o : Ordering) : compare a b = .ok o ↔ compare b a = .ok o.swap := by
    rw [compare_eq_ok_iff, compare_eq_ok_iff]
    exact ⟨Compared.swap, fun h => o.swap_swap ▸ h.swap⟩
  refine ⟨?_, hswap, fun o o' h h' ho ho' => ?_, fun o h => ?_,
    fun x y hx hy => compare_eq_compare_real hx hy⟩
  · cases hab : compare a b with
    | ok o => simp [(hswap o).1 hab]
    | error fault =>
        cases hba : compare b a with
        | ok o => simp [(hswap o.swap).2 (by rwa [o.swap_swap])] at hab
        | error fault' => simp
  · have hac := (compare_eq_ok_iff.1 h).then (compare_eq_ok_iff.1 h') ha hb hc ho ho'
    refine ⟨_, compare_eq_ok_iff.2 hac, ?_⟩
    cases o <;> cases o' <;> simp_all
  · rw [(compare_eq_ok_iff.1 h).eq_iff, or_iff_left (ha.not_blurred hb)]

theorem compare_orders_lists :
    let a : Value := .list [.integer 1, .float 2.5]
    let b : Value := .list [.float 1.0, .integer 3]
    let c : Value := .list [.integer 1, .integer 3, .boolean true]
    a.Placed ∧ b.Placed ∧ c.Placed ∧ compare a b = .ok .lt ∧ compare b c = .ok .lt ∧
      ∃ o, compare a c = .ok o ∧ o.isLE = true ∧ (o = .lt ↔ Ordering.lt = .lt ∨ Ordering.lt = .lt) := by
  intro a b c
  have ha : a.Placed := .cons (.integer 1) (.cons (.float (by decide)) .empty)
  have hb : b.Placed := .cons (.float (by decide)) (.cons (.integer 3) .empty)
  have hc : c.Placed := .cons (.integer 1) (.cons (.integer 3) (.cons (.boolean true) .empty))
  have hab : compare a b = .ok .lt := by decide +kernel
  have hbc : compare b c = .ok .lt := by decide +kernel
  exact ⟨ha, hb, hc, hab, hbc, (compare_orders ha hb hc).2.2.1 _ _ hab hbc rfl rfl⟩

end TemplateExpr.Value
