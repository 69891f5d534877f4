import TemplateExpr.Proofs.Grammar.Reading

namespace TemplateExpr.Parse

open Grammar

/-- The two states of the loop over a list are those in front of an item and behind one. -/
theorem items_sound {ts rest : List Token} {es : List Expr} :
    ((items true ts).Yields es rest →
      ∃ p closing, ts = p ++ closing :: rest ∧ closing.kind = .squareClose ∧ Contents p es) ∧
    ((items false ts).Yields es rest →
      ∃ p closing, ts = p ++ closing :: rest ∧ closing.kind = .squareClose ∧ Continuation p es) := by
  induction ts generalizing es with
  | nil =>
      exact ⟨fun h => absurd h not_items_nil_yields, fun h => absurd h not_items_nil_yields⟩
  | cons t ts ih =>
      constructor
      · intro h
        rcases items_true_cons_yields.1 h with ⟨ht, rfl, rfl⟩ | ⟨e, es, ht, hi, rfl⟩
        · exact ⟨[], t, rfl, ht, .empty⟩
        · obtain ⟨p, closing, rfl, hc, hp⟩ := ih.2 hi
          exact ⟨t :: p, closing, rfl, hc, hp.contents ht⟩
      · intro h
        rcases items_false_cons_yields.1 h with ⟨ht, rfl, rfl⟩ | ⟨ht, hi⟩
        · exact ⟨[], t, rfl, ht, .stop⟩
        · obtain ⟨p, closing, rfl, hc, hp⟩ := ih.1 hi
          exact ⟨t :: p, closing, rfl, hc, .comma ht hp⟩

theorem Closes.eq_append {nested : Nat} {ts inner rest : List Token}
    (h : Closes nested ts inner rest) :
    ∃ closing, closing.kind = .roundClose ∧ ts = inner ++ closing :: rest := by
  induction ts generalizing nested inner with
  | nil => exact absurd h not_closes_nil
  | cons t ts ih =>
      rcases closes_cons.1 h with ⟨ht, -, rfl, rfl⟩ | ⟨n, inner, -, hi, rfl⟩
      · exact ⟨t, ht, rfl⟩
      · obtain ⟨closing, hc, rfl⟩ := ih hi
        exact ⟨closing, hc, rfl⟩

mutual

theorem expression_sound {room min : Nat} {ts rest : List Token} {e : Expr} (hmin : min ≤ 5)
    (h : (expression room min ts).Yields e rest) :
    ∃ p, ts = p ++ rest ∧ Derives room (min + 1) p e ∧ Stops min rest := by
  obtain ⟨left, mid, hl, hc⟩ := expression_yields.1 h
  obtain ⟨p, hp, hd⟩ := operand_sound hl
  obtain ⟨q, hq, hd, hs⟩ :=
    climb_sound hd (by omega) (Nat.le_refl 6) (stops_of_five_le (by omega) mid) hc
  exact ⟨p ++ q, by rw [hp, hq, List.append_assoc], hd, hs⟩
termination_by 2 * ts.length + 1
decreasing_by
  · omega
  · have := hl.length_le
    omega

theorem climb_sound {room min level : Nat} {p ts rest : List Token} {left e : Expr}
    (hleft : Derives room level p left) (hlow : min < level) (hhigh : level ≤ 6)
    (hs : Stops level ts)
    (h : (climb room min left ts).Yields e rest) :
    ∃ q, ts = q ++ rest ∧ Derives room (min + 1) (p ++ q) e ∧ Stops min rest := by
  match ts with
  | [] =>
      obtain ⟨rfl, rfl⟩ := (climb_yields_of_stops (by simp [Stops])).1 h
      exact ⟨[], rfl, by simpa using hleft.looser hlow hhigh, by simp [Stops]⟩
  | t :: ts =>
      cases ht : t.operatorAbove? min with
      | none =>
          have hstop : Stops min (t :: ts) := by simpa [Stops] using ht
          obtain ⟨rfl, rfl⟩ := (climb_yields_of_stops hstop).1 h
          exact ⟨[], rfl, by simpa using hleft.looser hlow hhigh, hstop⟩
      | some op =>
          obtain ⟨right, mid, hr, hc⟩ := (climb_cons_yields ht).1 h
          obtain ⟨hk, hb, hlt⟩ := Token.operatorAbove?_eq_some_iff.1 ht
          have hle := Operator.precedence_le_five hb
          obtain ⟨q, hq, hd, hstop⟩ := expression_sound hle hr
          -- an operator tighter than the level of `left` would have been taken into `left`
          have hop : op.precedence ≤ level := by
            refine Nat.le_of_not_lt fun hgt => ?_
            have hnone := hs t rfl
            rw [Token.operatorAbove?_eq_some_iff.2 ⟨hk, hb, hgt⟩] at hnone
            cases hnone
          have hbin := Derives.binary (mem_operators_iff.2 ⟨hb, rfl⟩) hk
            (hleft.looser hop hhigh) hd
          obtain ⟨q', hq', hd', hs'⟩ := climb_sound hbin hlt (by omega) hstop hc
          exact ⟨t :: q ++ q', by simp [hq, hq'], by simpa using hd', hs'⟩
termination_by 2 * ts.length
decreasing_by
  · simp only [List.length_cons]
    omega
  · have := hr.length_le
    simp only [List.length_cons]
    omega

theorem operand_sound {room : Nat} {ts rest : List Token} {e : Expr}
    (h : (operand room ts).Yields e rest) :
    ∃ p, ts = p ++ rest ∧ Derives room 6 p e := by
  match ts with
  | [] => exact absurd h not_operand_nil_yields
  | t :: ts =>
      rcases operand_cons_yields.1 h with
        ⟨ht, rfl⟩ | ⟨ht, es, hi, rfl⟩ | ⟨ht, inside, inner, rfl, hc, he⟩ | ⟨op, a, ht, hu, ha, rfl⟩
      · exact ⟨[t], rfl, .item ht⟩
      · obtain ⟨p, closing, rfl, hk, hp⟩ := items_sound.1 hi
        exact ⟨t :: (p ++ [closing]), by simp, .list ht hk hp⟩
      · obtain ⟨closing, hk, hts⟩ := hc.eq_append
        obtain ⟨p, hp, hd, -⟩ := expression_sound (Nat.zero_le 5) he
        rw [List.append_nil] at hp
        exact ⟨t :: (p ++ [closing]), by simp [hts, hp], .group ht hk hd⟩
      · obtain ⟨p, rfl, hd⟩ := operand_sound ha
        exact ⟨t :: p, rfl, .unary (mem_frontOperators_iff.2 hu) ht hd⟩
termination_by 2 * ts.length
decreasing_by
  · have := hc.1
    simp only [List.length_cons]
    omega
  · simp

end

end TemplateExpr.Parse
