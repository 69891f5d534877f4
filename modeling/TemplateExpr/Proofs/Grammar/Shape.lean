import TemplateExpr.Proofs.Grammar.Phrase

namespace TemplateExpr

namespace Token

/-- What the grammar sees of a token: its kind and, if it is a name, which one. -/
def content (t : Token) : Kind × String :=
  match t.kind with
  | .name => (.name, t.text)
  | kind => (kind, "")

theorem content_fst (t : Token) : t.content.1 = t.kind := by
  unfold content
  split <;> simp_all

theorem kind_eq_of_content_eq {t u : Token} (h : t.content = u.content) : t.kind = u.kind := by
  rw [← content_fst, ← content_fst, h]

theorem text_eq_of_content_eq {t u : Token} (h : t.content = u.content) (hk : t.kind = .name) :
    t.text = u.text := by
  have hu : u.kind = .name := kind_eq_of_content_eq h ▸ hk
  simpa [content, hk, hu] using h

theorem content_eq {t u : Token} (hk : t.kind = u.kind) (ht : t.text = u.text) :
    t.content = u.content := by
  simp [content, hk, ht]

end Token

namespace Grammar

variable {depth level n : Nat} {t u : Token} {p q ts us : List Token} {e : Expr} {es : List Expr}

theorem Item.of_content (h : Item t e) (hu : t.content = u.content) : Item u e := by
  have hkind := Token.kind_eq_of_content_eq hu
  cases h with
  | value h => exact .value (hkind.symm.trans h)
  | name h =>
      rw [Token.text_eq_of_content_eq hu h]
      exact .name (hkind.symm.trans h)

theorem Row.of_content (h : Row p es) (hq : p.map Token.content = q.map Token.content) :
    Row q es := by
  induction h generalizing q with
  | last h =>
      obtain ⟨u, rfl, hu⟩ := List.map_eq_singleton_iff.1 hq.symm
      exact .last (h.of_content hu.symm)
  | @more t comma e p es h hc _ ih =>
      obtain ⟨u, q, rfl, hu, hq⟩ := List.map_eq_cons_iff.1 hq.symm
      obtain ⟨comma', q, rfl, hcomma, hq⟩ := List.map_eq_cons_iff.1 hq
      have hc' : comma'.kind = .comma := (Token.kind_eq_of_content_eq hcomma).trans hc
      exact .more (h.of_content hu.symm) hc' (ih hq.symm)

theorem Contents.of_content (h : Contents p es) (hq : p.map Token.content = q.map Token.content) :
    Contents q es := by
  cases h with
  | empty =>
      obtain rfl := List.map_eq_nil_iff.1 hq.symm
      exact .empty
  | row h => exact .row (h.of_content hq)
  | trailing h hc =>
      rw [List.map_append] at hq
      obtain ⟨q, last, rfl, hp, hlast⟩ := List.map_eq_append_iff.1 hq.symm
      obtain ⟨comma, rfl, hcomma⟩ := List.map_eq_singleton_iff.1 hlast
      exact .trailing (h.of_content hp.symm) ((Token.kind_eq_of_content_eq hcomma).trans hc)

theorem bracketed_of_content {opening closing : Token}
    (hq : (opening :: (p ++ [closing])).map Token.content = q.map Token.content) :
    ∃ opening' q' closing', q = opening' :: (q' ++ [closing']) ∧ opening'.kind = opening.kind ∧
      closing'.kind = closing.kind ∧ p.map Token.content = q'.map Token.content := by
  rw [List.map_cons, List.map_append] at hq
  obtain ⟨opening', q, rfl, ho, hq⟩ := List.map_eq_cons_iff.1 hq.symm
  obtain ⟨q, last, rfl, hp, hlast⟩ := List.map_eq_append_iff.1 hq
  obtain ⟨closing', rfl, hc⟩ := List.map_eq_singleton_iff.1 hlast
  exact ⟨opening', q, closing', rfl, Token.kind_eq_of_content_eq ho,
    Token.kind_eq_of_content_eq hc, hp.symm⟩

theorem Derives.of_content (h : Derives depth level p e)
    (hq : p.map Token.content = q.map Token.content) : Derives depth level q e := by
  induction h generalizing q with
  | tighter hl _ ih => exact .tighter hl (ih hq)
  | binary hop ht _ _ ihp ihq =>
      rw [List.map_append, List.map_cons] at hq
      obtain ⟨left, q, rfl, hleft, hq⟩ := List.map_eq_append_iff.1 hq.symm
      obtain ⟨u, right, rfl, hu, hright⟩ := List.map_eq_cons_iff.1 hq
      have hk := (Token.kind_eq_of_content_eq hu).trans ht
      exact .binary hop hk (ihp hleft.symm) (ihq hright.symm)
  | unary hop ht _ ih =>
      obtain ⟨u, q, rfl, hu, hq⟩ := List.map_eq_cons_iff.1 hq.symm
      exact .unary hop ((Token.kind_eq_of_content_eq hu).trans ht) (ih hq.symm)
  | item h =>
      obtain ⟨u, rfl, hu⟩ := List.map_eq_singleton_iff.1 hq.symm
      exact .item (h.of_content hu.symm)
  | list ho hc h =>
      obtain ⟨opening, q, closing, rfl, ho', hc', hp⟩ := bracketed_of_content hq
      exact .list (ho'.trans ho) (hc'.trans hc) (h.of_content hp)
  | group ho hc _ ih =>
      obtain ⟨opening, q, closing, rfl, ho', hc', hp⟩ := bracketed_of_content hq
      exact .group (ho'.trans ho) (hc'.trans hc) (ih hp)

def openAfter (n : Nat) (t : Token) : Nat :=
  match t.kind with
  | .roundOpen => n + 1
  | .roundClose => n - 1
  | _ => n

def nesting (n : Nat) : List Token → Nat
  | [] => n
  | t :: ts => max n (nesting (openAfter n t) ts)

theorem le_nesting (n : Nat) (ts : List Token) : n ≤ nesting n ts := by
  cases ts with
  | nil => exact Nat.le_refl n
  | cons t ts => exact Nat.le_max_left _ _

theorem nesting_cons (h : openAfter n t = n) (ts : List Token) :
    nesting n (t :: ts) = nesting n ts := by
  rw [nesting, h]
  exact Nat.max_eq_right (le_nesting n ts)

theorem nesting_of_content (h : ts.map Token.content = us.map Token.content) (n : Nat) :
    nesting n ts = nesting n us := by
  induction ts generalizing n us with
  | nil =>
      obtain rfl := List.map_eq_nil_iff.1 h.symm
      rfl
  | cons t ts ih =>
      obtain ⟨u, us, rfl, hu, hus⟩ := List.map_eq_cons_iff.1 h.symm
      have hafter : openAfter n t = openAfter n u := by
        rw [openAfter, openAfter, Token.kind_eq_of_content_eq hu]
      rw [nesting, nesting, hafter, ih hus.symm]

theorem nesting_item (h : Item t e) (n : Nat) (q : List Token) : nesting n (t :: q) = nesting n q := by
  refine nesting_cons ?_ q
  cases h <;> simp [openAfter, *]

theorem nesting_operator {op : Operator} (h : t.kind = .operator op) (n : Nat) (q : List Token) :
    nesting n (t :: q) = nesting n q :=
  nesting_cons (by simp [openAfter, h]) q

theorem nesting_comma (h : t.kind = .comma) (n : Nat) (q : List Token) :
    nesting n (t :: q) = nesting n q :=
  nesting_cons (by simp [openAfter, h]) q

theorem Row.nesting_append (h : Row p es) (n : Nat) (q : List Token) :
    nesting n (p ++ q) = nesting n q := by
  induction h with
  | last h => exact nesting_item h n q
  | more h hc _ ih =>
      rw [List.cons_append, List.cons_append, nesting_item h, nesting_comma hc, ih]

theorem Contents.nesting_append (h : Contents p es) (n : Nat) (q : List Token) :
    nesting n (p ++ q) = nesting n q := by
  cases h with
  | empty => rfl
  | row h => exact h.nesting_append n q
  | trailing h hc =>
      rw [List.append_assoc, h.nesting_append, List.singleton_append, nesting_comma hc]

theorem nesting_list {opening closing : Token} (ho : opening.kind = .squareOpen)
    (hc : closing.kind = .squareClose) (h : Contents p es) (n : Nat) (q : List Token) :
    nesting n (opening :: (p ++ closing :: q)) = nesting n q := by
  have hopening : openAfter n opening = n := by simp [openAfter, ho]
  have hclosing : openAfter n closing = n := by simp [openAfter, hc]
  rw [nesting_cons hopening, h.nesting_append, nesting_cons hclosing]

def Balanced (p : List Token) : Prop :=
  ∀ n q, nesting n (p ++ q) = max (n + nesting 0 p) (nesting n q)

theorem Balanced.nesting_operator {op : Operator} (hp : Balanced p) (ht : t.kind = .operator op)
    (n : Nat) (q : List Token) :
    nesting n (p ++ t :: q) = max (n + nesting 0 p) (nesting n q) := by
  rw [hp, Grammar.nesting_operator ht]

theorem Balanced.nesting_group {opening closing : Token} (hp : Balanced p)
    (ho : opening.kind = .roundOpen) (hc : closing.kind = .roundClose) (n : Nat) (q : List Token) :
    nesting n (opening :: (p ++ closing :: q)) = max (n + 1 + nesting 0 p) (nesting n q) := by
  have hopening : openAfter n opening = n + 1 := by simp [openAfter, ho]
  have hclosing : openAfter (n + 1) closing = n := by simp [openAfter, hc]
  rw [nesting, hopening, hp, nesting, hclosing]
  omega

theorem Derives.balanced (h : Derives depth level p e) : Balanced p := by
  induction h with
  | tighter _ _ ih => exact ih
  | binary _ ht _ _ ihp ihq =>
      intro n q
      rw [List.append_assoc, List.cons_append, ihp.nesting_operator ht, ihp.nesting_operator ht, ihq]
      omega
  | unary _ ht _ ih =>
      intro n q
      rw [List.cons_append, nesting_operator ht, nesting_operator ht, ih]
  | item h =>
      intro n q
      have hle := le_nesting n q
      rw [List.singleton_append, nesting_item h, nesting_item h]
      exact (Nat.max_eq_right hle).symm
  | list ho hc h =>
      intro n q
      have hle := le_nesting n q
      rw [List.cons_append, List.append_assoc, List.singleton_append, nesting_list ho hc h,
        nesting_list ho hc h]
      exact (Nat.max_eq_right hle).symm
  | group ho hc _ ih =>
      intro n q
      have hle := le_nesting n q
      rw [List.cons_append, List.append_assoc, List.singleton_append, ih.nesting_group ho hc,
        ih.nesting_group ho hc, nesting]
      omega

/-- A phrase needs as much depth as its brackets are nested, and no more. -/
theorem derives_iff_nesting_le :
    Derives n level p e ↔ (∃ depth, Derives depth level p e) ∧ nesting 0 p ≤ n := by
  constructor
  · intro h
    refine ⟨⟨n, h⟩, ?_⟩
    induction h with
    | tighter _ _ ih => exact ih
    | binary _ ht hp _ ihp ihq =>
        rw [hp.balanced.nesting_operator ht]
        omega
    | unary _ ht _ ih => rwa [nesting_operator ht]
    | item h => rw [nesting_item h]; exact Nat.zero_le _
    | list ho hc h => rw [nesting_list ho hc h]; exact Nat.zero_le _
    | group ho hc h ih =>
        rw [h.balanced.nesting_group ho hc, nesting]
        omega
  · rintro ⟨⟨depth, h⟩, hle⟩
    induction h generalizing n with
    | tighter hl _ ih => exact .tighter hl (ih hle)
    | binary hop ht hp _ ihp ihq =>
        rw [hp.balanced.nesting_operator ht] at hle
        exact .binary hop ht (ihp (by omega)) (ihq (by omega))
    | unary hop ht _ ih =>
        rw [nesting_operator ht] at hle
        exact .unary hop ht (ih hle)
    | item h => exact .item h
    | list ho hc h => exact .list ho hc h
    | group ho hc h ih =>
        rw [h.balanced.nesting_group ho hc] at hle
        cases n with
        | zero => omega
        | succ n => exact .group ho hc (ih (by omega))

end Grammar

end TemplateExpr
