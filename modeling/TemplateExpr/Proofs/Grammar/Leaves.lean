import TemplateExpr.Proofs.Evaluation.Range

namespace TemplateExpr

namespace Expr

mutual

def leaves : Expr → List Expr
  | .constant v => [.constant v]
  | .name x => [.name x]
  | .unary _ operand => leaves operand
  | .binary _ left right => leaves left ++ leaves right
  | .list items => itemLeaves items

def itemLeaves : List Expr → List Expr
  | [] => []
  | e :: es => leaves e ++ itemLeaves es

end

/-- A leaf as it can stand in a source. -/
inductive Written : Expr → Prop
  | constant {v : Value} (h : v.kind ≠ .list) : Written (.constant v)
  | name {x : String} (h : ∀ c ∈ x.toList, Lexeme.isWordPart c = true) : Written (.name x)

variable {e leaf child : Expr} {es : List Expr}

theorem mem_itemLeaves : leaf ∈ itemLeaves es ↔ ∃ e ∈ es, leaf ∈ e.leaves := by
  induction es with
  | nil => simp [itemLeaves]
  | cons e es ih => simp [itemLeaves, ih]

theorem mem_leaves_of_child (hc : child ∈ e.children) (h : leaf ∈ child.leaves) :
    leaf ∈ e.leaves := by
  cases e with
  | constant v | name x => simp [children] at hc
  | unary op a =>
      obtain rfl : child = a := by simpa [children] using hc
      exact h
  | binary op a b =>
      simp only [children, List.mem_cons, List.not_mem_nil, or_false] at hc
      rcases hc with rfl | rfl <;> simp [leaves, h]
  | list items => exact mem_itemLeaves.2 ⟨child, hc, h⟩

end Expr

namespace Grammar

variable {t : Token} {p : List Token} {e leaf : Expr} {es : List Expr}

theorem Item.leaves_eq (h : Item t e) : e.leaves = [e] := by
  cases h <;> rfl

theorem Row.exists_item (h : Row p es) : ∀ e ∈ es, ∃ t ∈ p, Item t e := by
  induction h with
  | last h => simpa using h
  | more h _ _ ih =>
      refine List.forall_mem_cons.2 ⟨⟨_, List.mem_cons_self, h⟩, fun e he => ?_⟩
      obtain ⟨t, ht, h⟩ := ih e he
      exact ⟨t, List.mem_cons_of_mem _ (List.mem_cons_of_mem _ ht), h⟩

theorem Contents.exists_item (h : Contents p es) : ∀ e ∈ es, ∃ t ∈ p, Item t e := by
  cases h with
  | empty => simp
  | row h => exact h.exists_item
  | trailing h _ =>
      intro e he
      obtain ⟨t, ht, h⟩ := h.exists_item e he
      exact ⟨t, List.mem_append_left _ ht, h⟩

theorem Derives.exists_item {depth level : Nat} (h : Derives depth level p e)
    (hleaf : leaf ∈ e.leaves) : ∃ t ∈ p, Item t leaf := by
  induction h with
  | tighter _ _ ih => exact ih hleaf
  | binary _ _ _ _ ihp ihq =>
      rcases List.mem_append.1 hleaf with hleaf | hleaf
      · obtain ⟨t, ht, h⟩ := ihp hleaf
        exact ⟨t, List.mem_append_left _ ht, h⟩
      · obtain ⟨t, ht, h⟩ := ihq hleaf
        exact ⟨t, List.mem_append_right _ (List.mem_cons_of_mem _ ht), h⟩
  | unary _ _ _ ih =>
      obtain ⟨t, ht, h⟩ := ih hleaf
      exact ⟨t, List.mem_cons_of_mem _ ht, h⟩
  | item h =>
      rw [h.leaves_eq, List.mem_singleton] at hleaf
      exact ⟨_, List.mem_cons_self, hleaf ▸ h⟩
  | list _ _ h =>
      obtain ⟨e, he, hleaf⟩ := Expr.mem_itemLeaves.1 hleaf
      obtain ⟨t, ht, h⟩ := h.exists_item e he
      rw [h.leaves_eq, List.mem_singleton] at hleaf
      exact ⟨t, List.mem_cons_of_mem _ (List.mem_append_left _ ht), hleaf ▸ h⟩
  | group _ _ _ ih =>
      obtain ⟨t, ht, h⟩ := ih hleaf
      exact ⟨t, List.mem_cons_of_mem _ (List.mem_append_left _ ht), h⟩

end Grammar

namespace Lexeme

variable {found : Position × Lexeme} {cs : List Char} {t : Token} {e : Expr}

theorem Spells.forall_isWordPart {text : List Char} (h : Spells text .word) :
    ∀ c ∈ text, isWordPart c = true := by
  cases h with
  | word hc h => exact List.forall_mem_cons.2 ⟨by simp [isWordPart, hc], h⟩

theorem Denotes.kind_ne_list {shape : Shape} {text : List Char} {v : Value}
    (h : Denotes shape text (.value v)) (hs : Spells text shape) : v.kind ≠ .list := by
  cases h with
  | sign =>
      -- no sign is a literal
      cases hs with
      | sign h => simp [signs] at h
  | keyword h =>
      simp only [keywords, List.mem_cons, Prod.mk.injEq, Token.Kind.value.injEq, reduceCtorEq,
        and_false, false_or, List.not_mem_nil, or_false] at h
      rcases h with ⟨-, rfl⟩ | ⟨-, rfl⟩ <;> exact Kind.noConfusion
  | integer | float | string => exact Kind.noConfusion

theorem Denotes.shape_eq_word {shape : Shape} {text : List Char} (h : Denotes shape text .name)
    (hs : Spells text shape) : shape = .word := by
  cases h with
  | sign =>
      cases hs with
      | sign h => simp [signs] at h
  | keyword | name => rfl

theorem Gives.written (h : Gives found t) (hx : Longest cs found.2) (he : Grammar.Item t e) :
    e.Written := by
  obtain ⟨kind, hd, rfl⟩ := h
  cases he with
  | value hk =>
      obtain rfl : kind = _ := hk
      exact .constant (hd.kind_ne_list hx.spells)
  | name hk =>
      obtain rfl : kind = .name := hk
      have hspells := hx.spells
      rw [hd.shape_eq_word hx.spells] at hspells
      exact .name (by simpa using hspells.forall_isWordPart)

theorem Reaches.exists_longest {p q : Position} {rest : List Char} {found : List (Position × Lexeme)}
    {ts : List Token} (h : Reaches p cs found q rest) (hg : List.Forall₂ Gives found ts)
    (ht : t ∈ ts) : ∃ cs x, Longest cs x.2 ∧ Gives x t := by
  induction h generalizing ts with
  | here =>
      cases hg
      cases ht
  | space _ _ ih => exact ih hg ht
  | lexeme hx _ ih =>
      cases hg with
      | cons hgives hg =>
          rcases List.mem_cons.1 ht with rfl | ht
          · exact ⟨_, _, hx, hgives⟩
          · exact ih hg ht

end Lexeme

theorem tokenize_mem {source : String} {ts : List Token} {t : Token} (h : tokenize source = .ok ts)
    (ht : t ∈ ts) : t.kind = .blockStart ∨ t.kind = .blockEnd ∨
      ∃ cs found, Lexeme.Longest cs found.2 ∧ Lexeme.Gives found t := by
  obtain ⟨us, hus, rfl⟩ := tokenize_ok_iff.1 h
  obtain ⟨found, q, hr, hg⟩ := Lexeme.scan_ok_iff.1 hus
  split at ht
  · exact .inr (.inr (hr.exists_longest hg ht))
  · rcases List.mem_append.1 ht with ht | ht
    · rcases List.mem_cons.1 ht with rfl | ht
      · exact .inl rfl
      · exact .inr (.inr (hr.exists_longest hg ht))
    · rw [List.mem_singleton.1 ht]
      exact .inr (.inl rfl)

theorem parseSource_written {source : String} {e leaf : Expr} (h : parseSource source = .ok e)
    (hleaf : leaf ∈ e.leaves) : leaf.Written := by
  obtain ⟨ts, hts, hblock⟩ := Grammar.parseSource_eq_ok_iff.1 h
  obtain ⟨opening, p, closing, rfl, -, -, hd⟩ := Grammar.parseBlock_eq_ok_iff.1 hblock
  obtain ⟨t, ht, hitem⟩ := hd.exists_item hleaf
  have hmem := List.mem_cons_of_mem opening (List.mem_append_left [closing] ht)
  rcases tokenize_mem hts hmem with hk | hk | ⟨cs, found, hx, hg⟩
  · cases hitem with
    | value h | name h => cases hk.symm.trans h
  · exact absurd hk hitem.kind_ne_blockEnd
  · exact hg.written hx hitem

end TemplateExpr
